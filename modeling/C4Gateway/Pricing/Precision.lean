import C4Gateway.Lib.Json
import C4Gateway.Pricing.Fetch

/-! When the variants that the parser generates keep their row on the price grid.  Only the variant
of the tier `fast` multiplies; the others set prices. -/

namespace C4Gateway.Pricing

open List
open Option (bind_eq_some_iff map_eq_some_iff)

theorem price_split (m p : Int) : m * p = 10000 * (p / 10000 * m) + p % 10000 * m := by
  have hdiv := Int.mul_ediv_add_emod p 10000
  calc m * p = m * (10000 * (p / 10000) + p % 10000) := by rw [hdiv]
    _ = 10000 * (p / 10000 * m) + p % 10000 * m := by ring

/-- A price times a multiplier is exact if the product is a whole number of basis points and
fits. -/
theorem priceMultiplierExact_isSome_iff {p m : Int} (hp : 0 ≤ p) (hm : 1 ≤ m) (hm' : m ≤ 100000) :
    (priceMultiplierExact p m).isSome = true ↔
      m * p % 10000 = 0 ∧ m * p ≤ 10000 * maxInt64 := by
  unfold priceMultiplierExact
  rw [if_neg (by omega)]
  by_cases hzero : m = 0 ∨ p = 0
  · rw [if_pos hzero]
    have hprod : m * p = 0 := by
      rcases hzero with h | h
      · omega
      · rw [h, mul_zero]
    simp [hprod, maxInt64]
  rw [if_neg hzero]
  have hsplit := price_split m p
  have hrem : 0 ≤ p % 10000 * m :=
    Int.mul_nonneg (Int.emod_nonneg p (by decide)) (by omega)
  have hover : p / 10000 > maxInt64 / m ↔ maxInt64 < p / 10000 * m := by
    rw [gt_iff_lt, Int.ediv_lt_iff_lt_mul (by omega)]
  simp only [hover]
  split_ifs
  · exact iff_of_false (by simp) (by omega)
  · exact iff_of_false (by simp) (by omega)
  · exact iff_of_false (by simp) (by omega)
  · exact iff_of_true rfl (by omega)

variable {mul : ℚ → ℚ → Option ℚ}

section

theorem scaledPositiveInt64_nonneg {value scale : ℚ} {n : Int}
    (h : scaledPositiveInt64 mul value scale = some n) : 0 ≤ n := by
  unfold scaledPositiveInt64 at h
  split at h
  · cases h
  split at h
  · cases h
    exact Int.le_refl 0
  · obtain ⟨scaled, -, h⟩ := bind_eq_some_iff.mp h
    simp only at h
    split_ifs at h
    cases h
    omega

theorem pricePerMillion_nonneg {v : Option ℚ} {n : Int} (h : pricePerMillion mul v = some n) :
    0 ≤ n := by
  unfold pricePerMillion at h
  split at h
  · obtain ⟨q, -, h⟩ := bind_eq_some_iff.mp h
    exact scaledPositiveInt64_nonneg h
  · cases h

theorem providerFastMultiplierBP_bounds {value : ℚ} {m : Int}
    (h : providerFastMultiplierBP mul value = some m) : 1 ≤ m ∧ m ≤ 100000 := by
  unfold providerFastMultiplierBP at h
  split_ifs at h
  obtain ⟨scaled, -, h⟩ := bind_eq_some_iff.mp h
  simp only at h
  split_ifs at h
  cases h
  omega

/-- The price of an accepted row is the converted price. -/
theorem basePrice_eq {v : Option ℚ} {price : Option Int} (h : basePrice mul v = some price) :
    price = pricePerMillion mul v := by
  unfold basePrice at h
  unfold pricePerMillion
  split at h
  · next hvalid =>
    obtain ⟨n, hn, rfl⟩ := map_eq_some_iff.mp h
    rw [if_pos hvalid, hn]
  · next hvalid =>
    rw [if_neg hvalid]
    exact (Option.some.inj h).symm

end

variable {e : PriceEntry}

section
variable {v : PriceVariant}

theorem validate_of_multBP_none (h : v.multBP = none) :
    validateVariantPricePrecision e v = none := by
  rw [validateVariantPricePrecision, h]

theorem unrepresentable_iff (m : Int) (name : String) (base : Option Int) :
    unrepresentable m (name, base, none) = false ↔
      ∀ p, base = some p → (priceMultiplierExact p m).isSome = true := by
  cases base <;> simp [unrepresentable]

/-- A variant that only multiplies is valid if it keeps every component on the grid. -/
theorem validate_multiplier_iff {m : Int} (hm : v.multBP = some m)
    (hsets : ∀ field ∈ overrides e v, field.2.2 = none) :
    validateVariantPricePrecision e v = none ↔
      ∀ p, some p ∈ e.components → (priceMultiplierExact p m).isSome = true := by
  have hcomponents : e.components = (overrides e v).map fun field => field.2.1 := rfl
  have hfield : ∀ field ∈ overrides e v, unrepresentable m field = false ↔
      ∀ p, field.2.1 = some p → (priceMultiplierExact p m).isSome = true := by
    rintro ⟨name, base, set⟩ hin
    obtain rfl : set = none := hsets _ hin
    exact unrepresentable_iff m name base
  simp only [validateVariantPricePrecision, hm, Option.map_eq_none_iff, find?_eq_none,
    Bool.not_eq_true, hcomponents, mem_map]
  constructor
  · rintro hall p ⟨field, hin, hp⟩
    exact (hfield field hin).mp (hall field hin) p hp
  · intro hall field hin
    exact (hfield field hin).mpr fun p hp => hall p ⟨field, hin, hp⟩

end

variable {Raw : Type} {S : Strings} {vars : List PriceVariant} {model : List Char}
  {costs : TokenCosts}

section
variable {D : Decoders Raw} {P : PriceVariant → Prop}

theorem forall_withSeqs (hP : ∀ v n, P { v with seq := n } ↔ P v) :
    (∀ v ∈ withSeqs vars, P v) ↔ ∀ v ∈ vars, P v := by
  constructor
  · intro h v hv
    obtain ⟨i, hi, rfl⟩ := mem_iff_getElem.mp hv
    exact (hP _ _).mp (h _ (mem_mapIdx.mpr ⟨i, hi, rfl⟩))
  · intro h v hv
    obtain ⟨i, hi, rfl⟩ := mem_mapIdx.mp hv
    exact (hP _ _).mpr (h _ (getElem_mem hi))

theorem forall_orderGeneratedVariants (hP : ∀ v n, P { v with seq := n } ↔ P v) :
    (∀ v ∈ orderGeneratedVariants S (withSeqs vars), P v) ↔ ∀ v ∈ vars, P v := by
  rw [orderGeneratedVariants, forall_withSeqs hP]
  split
  · exact forall_withSeqs hP
  · simpa only [mem_insertionSort] using forall_withSeqs hP

variable {w : PriceVariant}

/-- A generated variant is of the model and sets prices, or it is the one of the tier fast. -/
theorem mem_tokenVariant {v : PriceVariant} (h : w ∈ tokenVariant mul v costs) :
    w.model = v.model ∧ w.multBP = v.multBP := by
  rw [tokenVariant, mem_filter, mem_singleton] at h
  rw [h.1]
  exact ⟨rfl, rfl⟩

theorem mem_serviceVariant {tier : String} (h : w ∈ serviceVariant mul model tier costs) :
    w.model = model ∧ w.multBP = none := by
  unfold serviceVariant at h
  split at h
  · exact mem_tokenVariant h
  · cases h

theorem mem_tieredVariants {tiers : List TieredPrice} :
    w ∈ tieredVariants mul model tiers ↔ ∃ t ∈ tiers, ∃ lower upper,
      tierBounds t = some (lower, upper) ∧ lower ≠ 0 ∧ t.costs.all validOptionalCost ∧
        t.costs.any Option.isSome ∧ w ∈ tokenVariant mul
          { model, seq := 0, ctxMin := some lower
            ctxMax := if upper > lower then some upper else none } t.costs := by
  simp only [tieredVariants, mem_flatMap, mem_insertionSort]
  refine exists_congr fun t => and_congr_right fun _ => ?_
  cases hbounds : tierBounds t with
  | none => simp
  | some bounds =>
    obtain ⟨lower, upper⟩ := bounds
    by_cases hall : t.costs.all validOptionalCost <;> by_cases hany : t.costs.any Option.isSome <;>
      by_cases hzero : lower = 0 <;> simp_all

theorem mem_aboveVariants {raw : Raw} (h : w ∈ aboveVariants mul D model raw) :
    w.model = model ∧ w.multBP = none := by
  rw [aboveVariants, mem_filter, mem_map] at h
  obtain ⟨⟨p, -, rfl⟩, -⟩ := h
  exact ⟨rfl, rfl⟩

end

/-- The base prices of a token row on the grid, the output price raised to the model's floor. -/
def baseGrid (mul : ℚ → ℚ → Option ℚ) (S : Strings) (model : List Char) (costs : TokenCosts) :
    List (Option Int) :=
  [pricePerMillion mul costs.input,
    (match modelFloor S model with
      | none => pricePerMillion mul costs.output
      | some floor => raisedTo floor (pricePerMillion mul costs.output)),
    pricePerMillion mul costs.cacheRead, pricePerMillion mul costs.cacheCreation]

variable {pe : PriceEntry}

section
variable {D : Decoders Raw} {raw : Raw} {e : LitellmEntry Raw}

theorem modelFloor_nonneg {floor : Int} (h : modelFloor S model = some floor) : 0 ≤ floor := by
  unfold modelFloor at h
  split at h
  · cases h
    decide
  · cases h

theorem baseGrid_nonneg {p : Int} (h : some p ∈ baseGrid mul S model costs) : 0 ≤ p := by
  simp only [baseGrid, mem_cons, not_mem_nil, or_false] at h
  rcases h with h | h | h | h
  · exact pricePerMillion_nonneg h.symm
  · split at h
    · exact pricePerMillion_nonneg h.symm
    · next floor hfloor =>
      have hpos := modelFloor_nonneg hfloor
      cases hprice : pricePerMillion mul costs.output <;>
        simp only [hprice, raisedTo, Option.elim_none, Option.elim_some, Option.some.injEq] at h <;>
        omega
  · exact pricePerMillion_nonneg h.symm
  · exact pricePerMillion_nonneg h.symm

/-- The components of a token row, raised to the floor, are the base prices of its entry. -/
theorem tokenEntry_some (h : tokenEntry mul S D model raw e = some pe) :
    ∃ costs, tokenCosts mul S D e = some costs ∧ pe.model = model ∧
      ∀ p, some p ∈ (raisedEntry S pe).components ↔ some p ∈ baseGrid mul S model costs := by
  obtain ⟨costs, hcosts, h⟩ := bind_eq_some_iff.mp h
  obtain ⟨input, hinput, h⟩ := bind_eq_some_iff.mp h
  obtain ⟨output, houtput, h⟩ := bind_eq_some_iff.mp h
  cases h
  refine ⟨costs, hcosts, rfl, fun p => ?_⟩
  rw [basePrice_eq hinput, basePrice_eq houtput]
  unfold raisedEntry baseGrid
  cases modelFloor S model <;> simp [PriceEntry.components]

theorem raisedVariant_eq (v : PriceVariant) : raisedVariant S model v =
    { v with setOutputPerM := v.setOutputPerM.map ((modelFloor S model).elim id max) } := by
  unfold raisedVariant
  cases modelFloor S model <;> simp

/-- A property of all variants that set prices holds of all generated ones if it holds of the one of
the tier fast. -/
theorem forall_generatedVariants {P : PriceVariant → Prop}
    (hseq : ∀ v n, P { v with seq := n } ↔ P v)
    (hset : ∀ v, v.model = model → v.multBP = none → P v) :
    (∀ v ∈ generatedVariants mul S D model raw e, P v) ↔
      ∀ m, e.fast.bind (providerFastMultiplierBP mul) = some m →
        P { model := model, seq := 0, serviceTier := some "fast", multBP := some m } := by
  have hfast : (∀ v ∈ fastVariant mul model e.fast, P v) ↔
      ∀ m, e.fast.bind (providerFastMultiplierBP mul) = some m →
        P { model := model, seq := 0, serviceTier := some "fast", multBP := some m } := by
    simp only [fastVariant, Option.mem_toList, map_eq_some_iff, forall_exists_index, and_imp,
      forall_apply_eq_imp_iff₂]
  rw [generatedVariants, forall_orderGeneratedVariants hseq, ← hfast]
  simp only [forall_mem_append]
  refine ⟨fun h => h.2, fun h => ⟨⟨⟨⟨fun v hv => ?_, fun v hv => ?_⟩, fun v hv => ?_⟩,
    fun v hv => ?_⟩, h⟩⟩
  · exact hset v (mem_serviceVariant hv).1 (mem_serviceVariant hv).2
  · exact hset v (mem_serviceVariant hv).1 (mem_serviceVariant hv).2
  · obtain ⟨_, _, _, _, _, _, _, _, hv⟩ := mem_tieredVariants.mp hv
    exact hset v (mem_tokenVariant hv).1 (mem_tokenVariant hv).2
  · exact hset v (mem_aboveVariants hv).1 (mem_aboveVariants hv).2

/-- The variants of a token row are valid exactly if the multiplier of the tier fast keeps every
component of the row on the grid. -/
theorem generated_valid_iff :
    (∀ v ∈ (generatedVariants mul S D model raw e).map (raisedVariant S model),
        validateVariantPricePrecision pe v = none) ↔
      ∀ m, e.fast.bind (providerFastMultiplierBP mul) = some m →
        ∀ p, some p ∈ pe.components → (priceMultiplierExact p m).isSome = true := by
  have hseq : ∀ (v : PriceVariant) (n : Int),
      validateVariantPricePrecision pe (raisedVariant S model { v with seq := n }) = none ↔
        validateVariantPricePrecision pe (raisedVariant S model v) = none := by
    intro v n
    rw [raisedVariant_eq, raisedVariant_eq]
    rfl
  rw [forall_mem_map, forall_generatedVariants hseq fun v _ hv =>
    validate_of_multBP_none (by rw [raisedVariant_eq, hv])]
  refine forall_congr' fun m => imp_congr_right fun _ => ?_
  rw [raisedVariant_eq]
  exact validate_multiplier_iff rfl (by simp [overrides])

theorem generated_model : ∀ v ∈ generatedVariants mul S D model raw e, v.model = model :=
  (forall_generatedVariants (fun _ _ => Iff.rfl) fun _ h _ => h).mpr fun _ _ => rfl

end

section
variable (mul : ℚ → ℚ → Option ℚ) (S : Strings) (D : Decoders Raw)

/-- The entry is priced by token: it is neither an image row nor a call row, and it is accepted. -/
def IsTokenRow (model : List Char) (entry : Raw) : Prop :=
  parseImagePriceEntry mul S D model entry = none ∧
    parseFunctionPriceEntry mul S D model entry = none ∧
    (parsePriceEntry mul S D model entry).isSome = true

/-- The multiplier of the tier fast, if there is one, takes every base price of the entry to a whole
number of grid units that fits. -/
def FastExact (model : List Char) (entry : Raw) : Prop :=
  ∀ e costs m, D.entry entry = some e → tokenCosts mul S D e = some costs →
    e.fast.bind (providerFastMultiplierBP mul) = some m →
    ∀ p, some p ∈ baseGrid mul S model costs → m * p % 10000 = 0 ∧ m * p ≤ 10000 * maxInt64

variable {mul S D} {entry : Raw} {p : PriceEntry × List PriceVariant} {res : FetchResult}
  {raw : List (List Char × Raw)}

theorem parsePriceEntry_valid_iff (h : parsePriceEntry mul S D model entry = some p) :
    (∀ v ∈ (applyConservativeModelFloor S p.1 p.2).2,
        validateVariantPricePrecision (applyConservativeModelFloor S p.1 p.2).1 v = none) ↔
      FastExact mul S D model entry := by
  obtain ⟨e, he, h⟩ := bind_eq_some_iff.mp h
  obtain ⟨pe, hpe, h⟩ := bind_eq_some_iff.mp h
  cases h
  obtain ⟨costs, hcosts, hmodel, hgrid⟩ := tokenEntry_some hpe
  have harith : ∀ m, e.fast.bind (providerFastMultiplierBP mul) = some m →
      ∀ p, some p ∈ baseGrid mul S model costs → ((priceMultiplierExact p m).isSome = true ↔
        m * p % 10000 = 0 ∧ m * p ≤ 10000 * maxInt64) := by
    intro m hm p hp
    obtain ⟨value, -, hvalue⟩ := bind_eq_some_iff.mp hm
    obtain ⟨hlow, hhigh⟩ := providerFastMultiplierBP_bounds hvalue
    exact priceMultiplierExact_isSome_iff (baseGrid_nonneg hp) hlow hhigh
  simp only [applyConservativeModelFloor, hmodel, generated_valid_iff, hgrid]
  constructor
  · intro hexact e' costs' m he' hcosts' hm p hp
    cases he.symm.trans he'
    cases hcosts.symm.trans hcosts'
    exact (harith m hm p hp).mp (hexact m hm p hp)
  · intro hexact m hm p hp
    exact (harith m hm p hp).mpr (hexact e costs m he hcosts hm p hp)

theorem parsePriceEntry_model (h : parsePriceEntry mul S D model entry = some p) :
    (applyConservativeModelFloor S p.1 p.2).1.model = model ∧
      ∀ v ∈ (applyConservativeModelFloor S p.1 p.2).2, v.model = model := by
  obtain ⟨e, -, h⟩ := bind_eq_some_iff.mp h
  obtain ⟨pe, hpe, h⟩ := bind_eq_some_iff.mp h
  cases h
  obtain ⟨costs, -, hmodel, -⟩ := tokenEntry_some hpe
  refine ⟨?_, ?_⟩
  · simp only [applyConservativeModelFloor, raisedEntry]
    split <;> exact hmodel
  · intro v hv
    obtain ⟨w, hw, rfl⟩ := mem_map.mp hv
    rw [raisedVariant_eq]
    exact generated_model w hw

theorem parseImagePriceEntry_row (h : parseImagePriceEntry mul S D model entry = some pe) :
    pe.model = model ∧ pe.mode = .image := by
  obtain ⟨e, -, h⟩ := bind_eq_some_iff.mp h
  simp only at h
  split_ifs at h
  cases h
  exact ⟨rfl, rfl⟩

theorem parseFunctionPriceEntry_row (h : parseFunctionPriceEntry mul S D model entry = some pe) :
    pe.model = model ∧ pe.mode = .call := by
  obtain ⟨e, -, h⟩ := bind_eq_some_iff.mp h
  split_ifs at h
  obtain ⟨price, -, h⟩ := bind_eq_some_iff.mp h
  split_ifs at h
  obtain ⟨v, -, rfl⟩ := map_eq_some_iff.mp h
  exact ⟨rfl, rfl⟩

/-- A row and its variants are of the model, and valid exactly under the condition on the entry. -/
theorem parseModel_some (h : parseModel mul S D model entry = some (pe, vars)) :
    pe.model = model ∧ (∀ v ∈ vars, v.model = model) ∧
      ((∀ v ∈ vars, validateVariantPricePrecision pe v = none) ↔
        (IsTokenRow mul S D model entry → FastExact mul S D model entry)) := by
  unfold parseModel at h
  split at h
  · next pe' himage =>
    cases h
    refine ⟨(parseImagePriceEntry_row himage).1, by simp, iff_of_true (by simp) ?_⟩
    rintro ⟨hnone, -⟩
    rw [himage] at hnone
    cases hnone
  next himage =>
  split at h
  · next pe' hfunction =>
    cases h
    refine ⟨(parseFunctionPriceEntry_row hfunction).1, by simp, iff_of_true (by simp) ?_⟩
    rintro ⟨-, hnone, -⟩
    rw [hfunction] at hnone
    cases hnone
  · next hfunction =>
    obtain ⟨p, hp, heq⟩ := map_eq_some_iff.mp h
    have hmodel := parsePriceEntry_model hp
    have hvalid := parsePriceEntry_valid_iff hp
    rw [heq] at hmodel hvalid
    refine ⟨hmodel.1, hmodel.2, ?_⟩
    rw [hvalid]
    exact ⟨fun h _ => h, fun h => h ⟨himage, hfunction, by rw [hp]; rfl⟩⟩

theorem normalizeDocument_ok {normalized normalized' : List (List Char × Raw)}
    {skipped skipped' : Nat} (hnodup : (normalized.map Prod.fst).Nodup)
    (h : normalizeDocument S raw normalized skipped = .ok (normalized', skipped')) :
    (normalized'.map Prod.fst).Nodup ∧ ∀ model entry, (model, entry) ∈ normalized' ↔
      (model, entry) ∈ normalized ∨
        (model ≠ [] ∧ ∃ source, (source, entry) ∈ raw ∧ S.trimSpace source = model) := by
  induction raw generalizing normalized skipped with
  | nil =>
    cases h
    exact ⟨hnodup, by simp⟩
  | cons p rest ih =>
    obtain ⟨source, entry⟩ := p
    simp only [normalizeDocument] at h
    split at h
    · next hblank =>
      obtain ⟨hnodup', hmem⟩ := ih hnodup h
      refine ⟨hnodup', fun model' entry' => ?_⟩
      rw [hmem]
      refine or_congr_right (and_congr_right fun hne => ?_)
      grind
    next hne =>
    split_ifs at h with hnew
    obtain ⟨hnodup', hmem⟩ := ih (by
      rw [map_append]
      exact hnodup.append (nodup_singleton _) (disjoint_singleton.mpr hnew)) h
    refine ⟨hnodup', fun model' entry' => ?_⟩
    rw [hmem]
    simp only [mem_append, mem_cons, not_mem_nil, or_false, Prod.mk.injEq]
    grind

section
variable (h : parse mul S D raw = .ok res)
include h

theorem parse_ok :
    ∃ rows : List (List Char × Raw), (rows.map Prod.fst).Nodup ∧
      (∀ model entry, (model, entry) ∈ rows ↔
        model ≠ [] ∧ ∃ source, (source, entry) ∈ raw ∧ S.trimSpace source = model) ∧
      res.priceEntries = (rows.filterMap fun p => parseModel mul S D p.1 p.2).map Prod.fst ∧
      res.variants = (rows.filterMap fun p => parseModel mul S D p.1 p.2).flatMap Prod.snd := by
  unfold parse at h
  cases hdoc : normalizeDocument S raw [] 0 with
  | error f =>
    rw [hdoc] at h
    cases h
  | ok p =>
    obtain ⟨normalized, skipped⟩ := p
    rw [hdoc] at h
    cases h
    obtain ⟨hnodup, hmem⟩ := normalizeDocument_ok (by simp) hdoc
    have hperm := perm_insertionSort (fun a b : List Char × Raw => a.1 ≤ b.1) normalized
    refine ⟨_, (hperm.map Prod.fst).nodup_iff.mpr hnodup, fun model entry => ?_, rfl, rfl⟩
    rw [hperm.mem_iff, hmem]
    simp

theorem parse_entry (he : e ∈ res.priceEntries) :
    ∃ source entry vars, (source, entry) ∈ raw ∧ S.trimSpace source ≠ [] ∧
      parseModel mul S D (S.trimSpace source) entry = some (e, vars) ∧
      ∀ source' entry', (source', entry') ∈ raw → S.trimSpace source' = S.trimSpace source →
        entry' = entry := by
  obtain ⟨rows, hnodup, hrows, hentries, -⟩ := parse_ok h
  rw [hentries, mem_map] at he
  obtain ⟨⟨e', vars⟩, hin, rfl⟩ := he
  obtain ⟨⟨model, entry⟩, hrow, hparse⟩ := mem_filterMap.mp hin
  obtain ⟨hne, source, hsource, rfl⟩ := (hrows model entry).mp hrow
  refine ⟨source, entry, vars, hsource, hne, hparse, fun source' entry' hin' heq => ?_⟩
  have hrow' := (hrows (S.trimSpace source) entry').mpr ⟨hne, source', hin', heq⟩
  exact congrArg Prod.snd (inj_on_of_nodup_map hnodup hrow' hrow rfl)

/-- The row of an entry is in the result, and the variants of its model are those of the entry. -/
theorem parse_row {source : List Char} (hin : (source, entry) ∈ raw)
    (hne : S.trimSpace source ≠ [])
    (hparse : parseModel mul S D (S.trimSpace source) entry = some (pe, vars)) :
    pe ∈ res.priceEntries ∧ ∀ v, (v ∈ res.variants ∧ v.model = pe.model) ↔ v ∈ vars := by
  obtain ⟨rows, hnodup, hrows, hentries, hvariants⟩ := parse_ok h
  obtain ⟨hmodel, hof, -⟩ := parseModel_some hparse
  have hrow : (S.trimSpace source, entry) ∈ rows := (hrows _ _).mpr ⟨hne, source, hin, rfl⟩
  have hparsed : (pe, vars) ∈ rows.filterMap fun p => parseModel mul S D p.1 p.2 :=
    mem_filterMap.mpr ⟨(S.trimSpace source, entry), hrow, hparse⟩
  refine ⟨?_, fun v => ?_⟩
  · rw [hentries]
    exact mem_map_of_mem hparsed
  rw [hvariants, mem_flatMap]
  constructor
  · -- Only the row of the model itself has variants of the model.
    rintro ⟨⟨⟨e', vars'⟩, hin', hv⟩, heq⟩
    obtain ⟨⟨model', entry'⟩, hrow', hparse'⟩ := mem_filterMap.mp hin'
    obtain ⟨-, hof', -⟩ := parseModel_some hparse'
    have hsame : model' = S.trimSpace source := (hof' v hv).symm.trans (heq.trans hmodel)
    cases inj_on_of_nodup_map hnodup hrow' hrow hsame
    cases hparse.symm.trans hparse'
    exact hv
  · intro hv
    exact ⟨⟨(pe, vars), hparsed, hv⟩, (hof v hv).trans hmodel.symm⟩

theorem parse_valid_iff :
    (∀ e ∈ res.priceEntries, ∀ v ∈ res.variants, v.model = e.model →
        validateVariantPricePrecision e v = none) ↔
      ∀ source entry, (source, entry) ∈ raw → S.trimSpace source ≠ [] →
        IsTokenRow mul S D (S.trimSpace source) entry →
        FastExact mul S D (S.trimSpace source) entry := by
  constructor
  · intro hvalid source entry hin hne hrow
    cases hparse : parseModel mul S D (S.trimSpace source) entry with
    | none =>
      obtain ⟨himage, hfunction, htoken⟩ := hrow
      simp only [parseModel, himage, hfunction, Option.map_eq_none_iff] at hparse
      rw [hparse] at htoken
      cases htoken
    | some p =>
      obtain ⟨e, vars⟩ := p
      obtain ⟨he, hvars⟩ := parse_row h hin hne hparse
      refine (parseModel_some hparse).2.2.mp (fun v hv => ?_) hrow
      obtain ⟨hv, hmodel⟩ := (hvars v).mpr hv
      exact hvalid e he v hv hmodel
  · intro hexact e he v hv hmodel
    obtain ⟨source, entry, vars, hin, hne, hparse, -⟩ := parse_entry h he
    have hv' := ((parse_row h hin hne hparse).2 v).mp ⟨hv, hmodel⟩
    exact (parseModel_some hparse).2.2.mpr (hexact source entry hin hne) v hv'

theorem parse_trimmed :
    (res.priceEntries.map fun e => S.trimSpace e.model).Nodup ∧
      (∀ e ∈ res.priceEntries, e.model ≠ [] ∧ S.trimSpace e.model = e.model) ∧
      ∀ v ∈ res.variants, S.trimSpace v.model = v.model := by
  obtain ⟨rows, hnodup, hrows, hentries, hvariants⟩ := parse_ok h
  have htrim : ∀ p ∈ rows, p.1 ≠ [] ∧ S.trimSpace p.1 = p.1 := by
    intro p hp
    obtain ⟨hne, source, -, heq⟩ := (hrows p.1 p.2).mp hp
    exact ⟨hne, by rw [← heq, S.trimSpace_trimSpace]⟩
  refine ⟨?_, fun e he => ?_, fun v hv => ?_⟩
  · rw [hentries, map_map, List.Nodup, pairwise_map, pairwise_filterMap]
    refine (pairwise_map.mp hnodup).imp_of_mem fun {p q} hp hq hne a ha b hb => ?_
    rw [Function.comp_apply, Function.comp_apply, (parseModel_some ha).1, (parseModel_some hb).1,
      (htrim p hp).2, (htrim q hq).2]
    exact hne
  · rw [hentries, mem_map] at he
    obtain ⟨p, hin, rfl⟩ := he
    obtain ⟨row, hrow, hparse⟩ := mem_filterMap.mp hin
    rw [(parseModel_some hparse).1]
    exact htrim row hrow
  · rw [hvariants, mem_flatMap] at hv
    obtain ⟨p, hin, hv⟩ := hv
    obtain ⟨row, hrow, hparse⟩ := mem_filterMap.mp hin
    rw [(parseModel_some hparse).2.1 v hv]
    exact (htrim row hrow).2

end

/-- A row of the result is billable after a reload exactly if its variants are valid. -/
theorem usable_iff (slice : SeqSort) (h : parse mul S D raw = .ok res) (he : e ∈ res.priceEntries) :
    usable S slice res.priceEntries res.variants e.model = true ↔
      ∀ v ∈ res.variants, v.model = e.model → validateVariantPricePrecision e v = none := by
  obtain ⟨hnodup, htrim, htrim'⟩ := parse_trimmed h
  have hrow : catalogueRow S res.priceEntries e.model = some e := by
    have hkeys : (res.priceEntries.reverse.map fun e => S.trimSpace e.model).Nodup := by
      rwa [map_reverse, nodup_reverse]
    rw [catalogueRow, if_neg (htrim e he).1]
    exact (Sql.find?_key_iff hkeys).mpr ⟨mem_reverse.mpr he, (htrim e he).2⟩
  rw [usable, hrow, Option.all_some, all_eq_true]
  simp only [variantsOf, if_neg (htrim e he).1, (slice.perm _).mem_iff, mem_filter,
    decide_eq_true_eq, Option.isNone_iff_eq_none, and_imp]
  refine forall_congr' fun v => imp_congr_right fun hv => ?_
  rw [htrim' v hv]

end

/-- Every row of an accepted document is valid with its variants, and billable after a reload,
exactly if the multiplier of the tier fast is exact on the base prices of every token row. -/
theorem parsed_rows_billable_iff {Raw : Type} (mul : ℚ → ℚ → Option ℚ) (S : Strings)
    (D : Decoders Raw) (slice : SeqSort) (raw : List (List Char × Raw)) (res : FetchResult)
    (h : parse mul S D raw = .ok res) :
    (∀ e ∈ res.priceEntries,
        (∀ v ∈ res.variants, v.model = e.model → validateVariantPricePrecision e v = none) ∧
          usable S slice res.priceEntries res.variants e.model = true) ↔
      ∀ source entry, (source, entry) ∈ raw → S.trimSpace source ≠ [] →
        IsTokenRow mul S D (S.trimSpace source) entry →
        FastExact mul S D (S.trimSpace source) entry := by
  rw [← parse_valid_iff h]
  refine forall_congr' fun e => imp_congr_right fun he => ?_
  rw [usable_iff slice h he, and_self]

section

open Json

/-- The token prices of an object whose fields are spelled as in the feed. -/
def costsOf (fields : List (String × Json)) (suffix : String) : TokenCosts :=
  let price := fun name => (lastField fields (name ++ suffix)).bind asNum
  ⟨price "input_cost_per_token", price "output_cost_per_token",
    price "cache_read_input_token_cost", price "cache_creation_input_token_cost"⟩

/-- The decoders for entries with token prices and a multiplier. -/
def sampleDecoders : Decoders Json where
  entry j := j.asObj.map fun fields =>
    { costs := costsOf fields ""
      priority := costsOf fields "_priority"
      flex := costsOf fields "_flex"
      fast := (((lastField fields "provider_specific_entry").bind asObj).bind
        fun f => lastField f "fast").bind asNum
      mode := ((lastField fields "mode").bind asStr).map String.toList }
  items := asArr
  tier j := j.asObj.map fun fields => { costs := costsOf fields "" }
  fields j := j.asObj.map fun fields => fields.map fun f => (f.1.toList, f.2)
  number := asNum
  isNull j := match j with
    | .null => true
    | _ => false
  text _ := ""

/-- A model at 0.25 USD per million tokens, with a multiplier for the tier fast. -/
def fastFeed (fast : ℚ) : List (List Char × Json) :=
  [("m".toList, .obj [("input_cost_per_token", .num (25 / 10 ^ 8)), ("mode", .str "chat"),
    ("provider_specific_entry", .obj [("fast", .num fast)])])]

/-- A multiplier of 1.2345 takes the model out of billing. -/
theorem fast_variant_excludes :
    (parse (fun a b => some (a * b)) .ascii sampleDecoders (fastFeed (12345 / 10000))).map
        (fun res => (res.priceEntries.map fun e => (e.model, e.inputPerM,
            usable .ascii .insertion res.priceEntries res.variants e.model),
          resolvePrices .ascii (fun _ => (0, 0))
            (loadPricingSnapshot .ascii .insertion res.priceEntries res.variants) "m".toList 0 ""
            ⟨0, 0, 0⟩)) =
      .ok ([("m".toList, some 25000, false)], none) := by
  decide +kernel

def sixfoldResult : FetchResult where
  priceEntries := [{ model := "m".toList, inputPerM := some 25000 }]
  variants := [{ model := "m".toList, seq := 1, serviceTier := some "fast", multBP := some 60000 }]
  models := ["m".toList]
  skipped := 0

theorem parsed_rows_billable_sixfold :
    parse (fun a b => some (a * b)) .ascii sampleDecoders (fastFeed 6) = .ok sixfoldResult ∧
      ∀ source entry, (source, entry) ∈ fastFeed 6 → Strings.ascii.trimSpace source ≠ [] →
        IsTokenRow (fun a b => some (a * b)) .ascii sampleDecoders (Strings.ascii.trimSpace source)
          entry →
        FastExact (fun a b => some (a * b)) .ascii sampleDecoders (Strings.ascii.trimSpace source)
          entry := by
  have hparse : parse (fun a b => some (a * b)) .ascii sampleDecoders (fastFeed 6) =
      .ok sixfoldResult := by
    decide +kernel
  exact ⟨hparse, (parsed_rows_billable_iff _ .ascii sampleDecoders .insertion (fastFeed 6)
    sixfoldResult hparse).mp (by decide +kernel)⟩

end
end C4Gateway.Pricing
