import C4Gateway.Pricing.Csv
import C4Gateway.Pricing.Precision

/-! The least output price of some models.  The parser raises the stored prices; what is charged is
computed later, from the row and the variant that matches. -/

namespace C4Gateway.Pricing

open Option

theorem priceMultiplierExact_value {p m x : Int} (h : priceMultiplierExact p m = some x) :
    10000 * x = m * p := by
  have hsplit := price_split m p
  unfold priceMultiplierExact at h
  split at h
  · cases h
  split at h
  · next hzero =>
    cases h
    rcases hzero with h | h <;> simp [h]
  simp only at h
  split_ifs at h
  cases h
  omega

variable {v : PriceVariant}

theorem applyVariant_output {rp rp' : ResolvedPrices} (h : applyVariant v rp = some rp') :
    applyComponent v.multBP v.setOutputPerM rp.outputPerM = some rp'.outputPerM := by
  unfold applyVariant at h
  split_ifs at h
  obtain ⟨input, -, h⟩ := bind_eq_some_iff.mp h
  obtain ⟨output, houtput, h⟩ := bind_eq_some_iff.mp h
  obtain ⟨cacheRead, -, h⟩ := bind_eq_some_iff.mp h
  obtain ⟨cacheWrite, -, h⟩ := bind_eq_some_iff.mp h
  obtain ⟨call, -, h⟩ := bind_eq_some_iff.mp h
  obtain ⟨imageIn, -, h⟩ := bind_eq_some_iff.mp h
  obtain ⟨imageOut, -, h⟩ := bind_eq_some_iff.mp h
  obtain ⟨image, -, h⟩ := bind_eq_some_iff.mp h
  cases h
  exact houtput

/-- The price is there and not below the floor. -/
def AtLeast (floor : Int) (price : Option Int) : Prop := ∃ p, price = some p ∧ floor ≤ p

theorem raisedTo_atLeast (floor : Int) (price : Option Int) :
    AtLeast floor (raisedTo floor price) := by
  cases price with
  | none => exact ⟨floor, rfl, Int.le_refl _⟩
  | some p => exact ⟨max floor p, rfl, Int.le_max_left _ _⟩

/-- What a parsed variant does to the output price of a row with a floor: it sets it to at least the
floor, or it may multiply it. -/
structure FlooredVariant (floor : Int) (v : PriceVariant) : Prop where
  set_le : ∀ price, v.setOutputPerM = some price → floor ≤ price
  unset : ∀ m, v.multBP = some m → v.setOutputPerM = none

section
variable {Raw : Type} {mul : ℚ → ℚ → Option ℚ} {S : Strings} {D : Decoders Raw}
  {model : List Char} {entry : Raw} {pe : PriceEntry} {vars : List PriceVariant} {floor : Int}

theorem raisedVariant_floored (hfloor : modelFloor S model = some floor)
    (hunset : ∀ m, v.multBP = some m → v.setOutputPerM = none) :
    FlooredVariant floor (raisedVariant S model v) := by
  simp only [raisedVariant, hfloor]
  refine ⟨fun price h => ?_, fun m hm => ?_⟩
  · obtain ⟨p, -, rfl⟩ := map_eq_some_iff.mp h
    exact Int.le_max_left _ _
  · rw [map_eq_none_iff]
    exact hunset m hm

/-- A token row has the prices of its entry and the generated variants, raised to the floor; other
rows have no variants. -/
theorem parseModel_token (h : parseModel mul S D model entry = some (pe, vars)) :
    pe.mode ≠ .token ∧ vars = [] ∨ ∃ e costs, D.entry entry = some e ∧
      tokenCosts mul S D e = some costs ∧ pe.mode = .token ∧
      pe.inputPerM = pricePerMillion mul costs.input ∧
      pe.outputPerM = (modelFloor S model).elim (pricePerMillion mul costs.output)
        (raisedTo · (pricePerMillion mul costs.output)) ∧
      pe.cacheReadPerM = pricePerMillion mul costs.cacheRead ∧
      pe.cacheWritePerM = pricePerMillion mul costs.cacheCreation ∧
      vars = (generatedVariants mul S D model entry e).map (raisedVariant S model) := by
  unfold parseModel at h
  split at h
  · next himage =>
    cases h
    simp [(parseImagePriceEntry_row himage).2]
  split at h
  · next hfunction =>
    cases h
    simp [(parseFunctionPriceEntry_row hfunction).2]
  · obtain ⟨p, hp, heq⟩ := map_eq_some_iff.mp h
    obtain ⟨e, he, hp⟩ := bind_eq_some_iff.mp hp
    obtain ⟨pe', hpe, hp⟩ := bind_eq_some_iff.mp hp
    obtain ⟨costs, hcosts, hpe⟩ := bind_eq_some_iff.mp hpe
    obtain ⟨input, hinput, hpe⟩ := bind_eq_some_iff.mp hpe
    obtain ⟨output, houtput, hpe⟩ := bind_eq_some_iff.mp hpe
    cases hp
    cases hpe
    cases heq
    refine .inr ⟨e, costs, he, hcosts, ?_⟩
    rw [basePrice_eq hinput, basePrice_eq houtput]
    unfold raisedEntry
    cases modelFloor S model <;> exact ⟨rfl, rfl, rfl, rfl, rfl, rfl⟩

theorem parseModel_floored (h : parseModel mul S D model entry = some (pe, vars))
    (hfloor : modelFloor S model = some floor) :
    (pe.mode = .token ∧ AtLeast floor pe.outputPerM ∨ pe.mode ≠ .token ∧ vars = []) ∧
      ∀ v ∈ vars, FlooredVariant floor v := by
  obtain ⟨hmode, rfl⟩ | ⟨e, costs, -, -, hmode, -, houtput, -, -, rfl⟩ := parseModel_token h
  · simp [hmode]
  · have hunset : ∀ v ∈ generatedVariants mul S D model entry e,
        ∀ m, v.multBP = some m → v.setOutputPerM = none :=
      (forall_generatedVariants (fun _ _ => Iff.rfl) fun v _ hnone m hm => by
        rw [hnone] at hm
        cases hm).mpr fun _ _ _ _ => rfl
    refine ⟨.inl ⟨hmode, ?_⟩, List.forall_mem_map.mpr fun v hv =>
      raisedVariant_floored hfloor (hunset v hv)⟩
    rw [houtput, hfloor]
    exact raisedTo_atLeast floor _

end

/-- The output price that a variant of a row with a floor makes of the row's own. -/
theorem applyComponent_floor_iff {floor : Int} {base price : Option Int}
    (hv : FlooredVariant floor v) (hbase : AtLeast floor base)
    (h : applyComponent v.multBP v.setOutputPerM base = some price) :
    AtLeast floor price ↔
      ∀ m p, v.multBP = some m → base = some p → 10000 * floor ≤ m * p := by
  obtain ⟨p, rfl, hp⟩ := hbase
  cases hset : v.setOutputPerM with
  | some value =>
    rw [hset] at h
    cases h
    refine iff_of_true ⟨value, rfl, hv.set_le value hset⟩ fun m _ hm => ?_
    rw [hv.unset m hm] at hset
    cases hset
  | none =>
    rw [hset] at h
    cases hm : v.multBP with
    | none =>
      rw [hm] at h
      cases h
      exact iff_of_true ⟨p, rfl, hp⟩ (by simp)
    | some m =>
      rw [hm] at h
      obtain ⟨x, hx, rfl⟩ := map_eq_some_iff.mp h
      have hvalue := priceMultiplierExact_value hx
      constructor
      · rintro ⟨_, hx, hle⟩ _ _ hm hp
        cases hx
        cases hm
        cases hp
        omega
      · intro hle
        have := hle m p rfl rfl
        exact ⟨x, rfl, by omega⟩

/-- A feed whose first character tells its format: the members of the JSON object, or the header and
the records of the CSV file. -/
inductive Document (Raw : Type) where
  | json (raw : List (List Char × Raw))
  | csv (header : CsvRow) (rows : List CsvRow)

def Document.isJson {Raw : Type} : Document Raw → Bool
  | .json _ => true
  | .csv .. => false

/-- What the parser makes of a feed; absent is an error. -/
def parseDocument {Raw : Type} (mul : ℚ → ℚ → Option ℚ) (parseFloat : List Char → Option ℚ)
    (S : Strings) (D : Decoders Raw) : Document Raw → Option FetchResult
  | .json raw => (parse mul S D raw).toOption
  | .csv header rows => (parseCSV mul parseFloat S header rows).toOption

theorem parseCSV_variants {mul : ℚ → ℚ → Option ℚ} {parseFloat : List Char → Option ℚ}
    {S : Strings} {header : CsvRow} {rows : List CsvRow} {res : FetchResult}
    (h : parseCSV mul parseFloat S header rows = .ok res) : res.variants = [] := by
  simp only [parseCSV] at h
  split at h <;> cases h
  rfl

theorem toOption_eq_some {ε α : Type} {x : Except ε α} {a : α} (h : x.toOption = some a) :
    x = .ok a := by
  cases x with
  | error e => cases h
  | ok b => exact congrArg _ (Option.some.inj h)

/-- The price charged for output is at least the floor of the model exactly if the row is a token
row of a JSON feed, or has such a price by itself, and no multiplier of the variant that is applied
takes the row's price below the floor. -/
theorem parsed_output_floor_iff {Raw : Type} (mul : ℚ → ℚ → Option ℚ)
    (parseFloat : List Char → Option ℚ) (S : Strings) (D : Decoders Raw)
    (clock : String → Int × Int) (doc : Document Raw) (res : FetchResult)
    (h : parseDocument mul parseFloat S D doc = some res) (pe : PriceEntry)
    (hpe : pe ∈ res.priceEntries) (floor : Int) (hfloor : modelFloor S pe.model = some floor)
    (vars : List PriceVariant) (hvars : ∀ v ∈ vars, v ∈ res.variants ∧ v.model = pe.model)
    (tier : String) (promptTokens : Int) (at_ : LocalTime) (rp : ResolvedPrices)
    (hrp : resolveEntryPrices clock (some pe) vars tier promptTokens at_ = some rp) :
    AtLeast floor rp.outputPerM ↔
      (doc.isJson ∧ pe.mode = .token ∨ AtLeast floor pe.outputPerM) ∧
        ∀ v, vars.find? (fun v => variantMatches clock v tier promptTokens at_) = some v →
          ∀ m p, v.multBP = some m → pe.outputPerM = some p → 10000 * floor ≤ m * p := by
  cases doc with
  | csv header rows =>
    have hnone := parseCSV_variants (toOption_eq_some h)
    obtain rfl : vars = [] := List.eq_nil_iff_forall_not_mem.mpr fun v hv => by
      simpa [hnone] using (hvars v hv).1
    cases hrp
    simp [basePrices, Document.isJson]
  | json raw =>
    have hok : parse mul S D raw = .ok res := toOption_eq_some h
    obtain ⟨source, entry, parsed, hin, hne, hparse, -⟩ := parse_entry hok hpe
    have hmine : ∀ v ∈ vars, v ∈ parsed := fun v hv =>
      ((parse_row hok hin hne hparse).2 v).mp (hvars v hv)
    rw [(parseModel_some hparse).1] at hfloor
    obtain ⟨hrow, hvariants⟩ := parseModel_floored hparse hfloor
    simp only [resolveEntryPrices] at hrp
    split at hrp
    · next hnone =>
      cases hrp
      simp only [hnone, basePrices]
      rcases hrow with ⟨-, hbase⟩ | ⟨hother, -⟩
      · simp [hbase]
      · simp [hother]
    · next v hfind =>
      have hv := hmine v (List.mem_of_find?_eq_some hfind)
      rcases hrow with ⟨-, hbase⟩ | ⟨-, rfl⟩
      · have happly := applyComponent_floor_iff (hvariants v hv) hbase (applyVariant_output hrp)
        simp [happly, hfind, hbase]
      · cases hv

def flooredFeed (mode : String) (fast : ℚ) : Document Json := .json
  [("gpt-5.6".toList, .obj [("output_cost_per_token", .num (1 / 10 ^ 8)), ("mode", .str mode),
    ("provider_specific_entry", .obj [("fast", .num fast)])])]

/-- The numbers of a feed without fractions. -/
def wholeFloat (value : List Char) : Option ℚ := (Text.wholeNat value).map Nat.cast

/-- The output price of a request of the tier fast for the first model of the feed. -/
def fastOutput (doc : Document Json) : Option (Option Int) := do
  let res ← parseDocument (fun a b => some (a * b)) wholeFloat .ascii sampleDecoders doc
  let rp ← resolveEntryPrices (fun _ => (0, 0)) res.priceEntries.head? res.variants "fast" 10
    ⟨0, 0, 0⟩
  some rp.outputPerM

/-- Half the floor, and the price of the feed for an image model and for the row of a CSV feed. -/
theorem parsed_output_below_floor :
    modelFloor .ascii "gpt-5.6".toList = some 3000000 ∧
      fastOutput (flooredFeed "chat" (1 / 2)) = some (some 1500000) ∧
      fastOutput (flooredFeed "image_generation" 1) = some (some 1000) ∧
      fastOutput (.csv ["model_id".toList, "output_usd_per_1m".toList]
        [["gpt-5.6".toList, ['1']]]) = some (some 100000) := by
  decide +kernel

def doubledResult : FetchResult where
  priceEntries := [{ model := "gpt-5.6".toList, outputPerM := some 3000000 }]
  variants :=
    [{ model := "gpt-5.6".toList, seq := 1, serviceTier := some "fast", multBP := some 20000 }]
  models := ["gpt-5.6".toList]
  skipped := 0

theorem parsed_output_floor_doubled :
    ∃ rp, resolveEntryPrices (fun _ => (0, 0)) doubledResult.priceEntries.head?
        doubledResult.variants "fast" 10 ⟨0, 0, 0⟩ = some rp ∧ AtLeast 3000000 rp.outputPerM := by
  refine ⟨_, rfl, ?_⟩
  refine (parsed_output_floor_iff (fun a b => some (a * b)) wholeFloat .ascii sampleDecoders
    (fun _ => (0, 0)) (flooredFeed "chat" 2) doubledResult (by decide +kernel) _
    (List.mem_cons_self ..) 3000000 (by decide +kernel) doubledResult.variants (by decide +kernel)
    "fast" 10 ⟨0, 0, 0⟩ _ rfl).mpr ⟨Or.inl ⟨rfl, rfl⟩, ?_⟩
  intro v hv m p hm hp
  cases hv
  cases hm
  cases hp
  decide

end C4Gateway.Pricing
