import C4Gateway.Pricing.Floor
import Mathlib.Data.Prod.Lex
import Mathlib.Data.String.Basic

/-! Which of the generated variants a request is priced with.  The resolver applies the first one
that matches, so what it applies is decided by the order in which the parser numbers them. -/

namespace C4Gateway.Pricing

open List

section
variable (S : Strings)

/-- `v` is at least as specific as `w`: of a better class, or of the same class with a higher lower
bound, or with the same one and no higher upper bound. -/
def Beats (v w : PriceVariant) : Prop :=
  variantSpecificityRank S v < variantSpecificityRank S w ∨
    variantSpecificityRank S v = variantSpecificityRank S w ∧
      (variantContextMin w < variantContextMin v ∨
        variantContextMin v = variantContextMin w ∧ variantContextMax v ≤ variantContextMax w)

/-- What variants are sorted by. -/
def variantKey (v : PriceVariant) : ℕ ×ₗ ℤ ×ₗ ℤ ×ₗ String ×ₗ ℤ :=
  toLex (variantSpecificityRank S v, toLex (-variantContextMin v, toLex (variantContextMax v,
    toLex (if variantHasService S v then v.serviceTier.getD "" else "", v.seq))))

variable {S} {a b v w : PriceVariant} {vars : List PriceVariant}

theorem specificity_eq_iff : variantSpecificityRank S a = variantSpecificityRank S b ↔
    variantHasService S a = variantHasService S b ∧ variantHasContext a = variantHasContext b := by
  unfold variantSpecificityRank
  cases variantHasService S a <;> cases variantHasService S b <;> cases variantHasContext a <;>
    cases variantHasContext b <;> decide

theorem bounds_of_not_context (h : variantHasContext v = false) :
    variantContextMin v = 0 ∧ variantContextMax v = maxInt64 := by
  simp only [variantHasContext, Bool.or_eq_false_iff, Option.isSome_eq_false_iff,
    Option.isNone_iff_eq_none] at h
  simp [variantContextMin, variantContextMax, h]

/-- The comparison of the parser is a lexicographic order. -/
theorem variantLess_iff : variantLess S a b = true ↔ variantKey S a < variantKey S b := by
  unfold variantLess variantKey
  by_cases hrank : variantSpecificityRank S a = variantSpecificityRank S b
  · obtain ⟨hservice, hcontext⟩ := specificity_eq_iff.mp hrank
    have hplain : variantHasContext b = false → variantContextMin a = variantContextMin b ∧
        variantContextMax a = variantContextMax b := fun h => by
      rw [(bounds_of_not_context h).1, (bounds_of_not_context h).2]
      exact bounds_of_not_context (hcontext.trans h)
    have htier : variantHasService S b = true →
        (a.serviceTier ≠ b.serviceTier ↔ a.serviceTier.getD "" ≠ b.serviceTier.getD "") := by
      intro h
      have ha : variantHasService S a = true := hservice.trans h
      cases hta : a.serviceTier <;> cases htb : b.serviceTier <;> simp_all [variantHasService]
    simp only [Prod.Lex.lt_iff, ofLex_toLex, hrank, hservice, hcontext, Bool.and_self]
    cases hb : variantHasContext b <;> cases hs : variantHasService S b <;> grind -linarith
  · simp [Prod.Lex.lt_iff, hrank]

theorem sorted_beats : (vars.insertionSort fun a b => !variantLess S b a).Pairwise (Beats S) := by
  have hle : ∀ a b, (!variantLess S b a) = true ↔ variantKey S a ≤ variantKey S b := fun a b => by
    rw [Bool.not_eq_true', ← Bool.not_eq_true, variantLess_iff, not_lt]
  have : Std.Total fun a b => (!variantLess S b a) = true :=
    ⟨fun a b => by simpa only [hle] using le_total _ _⟩
  have : IsTrans _ fun a b => (!variantLess S b a) = true :=
    ⟨fun a b c => by simpa only [hle] using le_trans⟩
  refine (pairwise_insertionSort _ vars).imp fun {a b} h => ?_
  have h := (hle a b).mp h
  simp only [variantKey, Prod.Lex.le_iff, ofLex_toLex] at h
  unfold Beats
  omega

/-- The numbers of the generated variants say how specific they are. -/
theorem beats_of_seq_le (hv : v ∈ orderGeneratedVariants S vars)
    (hw : w ∈ orderGeneratedVariants S vars) (h : v.seq ≤ w.seq) : Beats S v w := by
  have hpairwise : (if vars.length < 2 then vars
      else vars.insertionSort fun a b => !variantLess S b a).Pairwise (Beats S) := by
    split
    · exact pairwise_iff_getElem.mpr fun i j _ hj hij => by omega
    · exact sorted_beats
  obtain ⟨i, hi, rfl⟩ := mem_mapIdx.mp hv
  obtain ⟨j, hj, rfl⟩ := mem_mapIdx.mp hw
  rcases Nat.lt_or_eq_of_le (show i ≤ j by simpa using h) with hij | rfl
  · exact pairwise_iff_getElem.mp hpairwise i j hi hj hij
  · exact .inr ⟨rfl, .inr ⟨rfl, Int.le_refl _⟩⟩

end

/-- The range of a tier: from its lower bound on, and below its upper bound if it has one. -/
def TieredPrice.Contains (t : TieredPrice) (p : Int) : Prop :=
  ∃ lower upper, tierBounds t = some (lower, upper) ∧ lower ≤ p ∧ (lower < upper → p < upper)

/-- Two tiers that have a number of tokens in common are the same. -/
def DisjointRanges (tiers : List TieredPrice) : Prop :=
  ∀ t ∈ tiers, ∀ t' ∈ tiers, ∀ p, t.Contains p → t'.Contains p → t = t'

section
variable {mul : ℚ → ℚ → Option ℚ}

theorem pricePerMillion_normalized (v : Option ℚ) :
    pricePerMillion mul (normalizeOptionalTokenCost mul v) = pricePerMillion mul v := by
  cases v with
  | none => rfl
  | some q =>
    by_cases hq : 0 ≤ q <;> cases hprice : toMilliCentsPerMillion mul q <;>
      simp [pricePerMillion, normalizeOptionalTokenCost, validCost, Option.filter, hq, hprice]

theorem validOptionalCost_normalized (v : Option ℚ) :
    validOptionalCost (normalizeOptionalTokenCost mul v) = true := by
  simp only [normalizeOptionalTokenCost, validOptionalCost, Option.all_eq_true,
    Option.filter_eq_some_iff, Bool.and_eq_true]
  exact fun q h => h.2.1

variable {Raw : Type} {S : Strings} {D : Decoders Raw} {clock : String → Int × Int}
  {model : List Char} {entry : Raw} {e : LitellmEntry Raw} {tier : String} {p : Int}
  {at_ : LocalTime} {t : TieredPrice} {lower upper : Int}

theorem not_match_service {name : String} {costs : TokenCosts} (h : tier ≠ name)
    {v : PriceVariant} (hv : v ∈ serviceVariant mul model name costs) :
    ¬variantMatches clock v tier p at_ := by
  unfold serviceVariant at hv
  split at hv
  · obtain ⟨rfl, -⟩ := mem_filter.mp hv |>.imp_left mem_singleton.mp
    simp [variantMatches, h.symm]
  · cases hv

/-- A request of no special tier only matches variants of tiers that contain its prompt. -/
theorem match_tier (habove : extractAboveVariants mul D entry = [])
    (htier : tier ∉ ["priority", "flex", "fast"]) :
    ∀ v ∈ generatedVariants mul S D model entry e, variantMatches clock v tier p at_ →
      ∃ t ∈ parseTieredPricing D e.tieredPricing, t.Contains p ∧ v.multBP = none ∧
        v.setInputPerM = pricePerMillion mul t.costs.input ∧
        v.setOutputPerM = pricePerMillion mul t.costs.output ∧
        v.setCacheReadPerM = pricePerMillion mul t.costs.cacheRead ∧
        v.setCacheCreationPerM = pricePerMillion mul t.costs.cacheCreation := by
  simp only [mem_cons, not_mem_nil, or_false, not_or] at htier
  rw [generatedVariants, forall_orderGeneratedVariants fun _ _ => Iff.rfl]
  simp only [forall_mem_append]
  refine ⟨⟨⟨⟨fun v hv h => ?_, fun v hv h => ?_⟩, fun v hv h => ?_⟩, fun v hv h => ?_⟩,
    fun v hv h => ?_⟩
  · exact absurd h (not_match_service htier.1 hv)
  · exact absurd h (not_match_service htier.2.1 hv)
  · obtain ⟨t', ht', lower, upper, hbounds, -, -, -, hv⟩ := mem_tieredVariants.mp hv
    obtain ⟨t, ht, rfl⟩ := mem_map.mp ht'
    obtain ⟨rfl, -⟩ := mem_filter.mp hv |>.imp_left mem_singleton.mp
    refine ⟨t, ht, ⟨lower, upper, hbounds, ?_⟩, rfl, pricePerMillion_normalized _,
      pricePerMillion_normalized _, pricePerMillion_normalized _, pricePerMillion_normalized _⟩
    simp only [variantMatches, Bool.and_eq_true] at h
    refine ⟨by simpa using h.1.1.1.2, fun hlt => ?_⟩
    simpa [hlt] using h.1.1.2
  · simp [aboveVariants, habove] at hv
  · obtain ⟨m, -, rfl⟩ := Option.map_eq_some_iff.mp (Option.mem_toList.mp hv)
    simp [variantMatches, Ne.symm htier.2.2] at h

section
variable (ht : t ∈ parseTieredPricing D e.tieredPricing)
  (hprice : (pricePerMillion mul t.costs.input).isSome)
include ht hprice

/-- A tier above 0 has a variant, which matches in the range of the tier. -/
theorem exists_match (hbounds : tierBounds t = some (lower, upper)) (hlower : lower ≠ 0)
    (hp : lower ≤ p ∧ (lower < upper → p < upper)) :
    ∃ v ∈ generatedVariants mul S D model entry e, variantMatches clock v tier p at_ := by
  by_contra hnone
  simp only [not_exists, not_and] at hnone
  rw [generatedVariants, forall_orderGeneratedVariants fun _ _ => Iff.rfl] at hnone
  simp only [forall_mem_append] at hnone
  rw [← pricePerMillion_normalized] at hprice
  refine hnone.1.1.2 _ (mem_tieredVariants.mpr ⟨_, mem_map_of_mem ht, lower, upper,
    hbounds, hlower, ?_, ?_, mem_filter.mpr ⟨mem_singleton.mpr rfl, ?_⟩⟩) ?_
  · simp [TokenCosts.all, TokenCosts.map, validOptionalCost_normalized]
  · cases hcost : normalizeOptionalTokenCost mul t.costs.input with
    | none => simp [hcost, pricePerMillion] at hprice
    | some q => simp [TokenCosts.any, TokenCosts.map, hcost]
  · simp [PriceVariant.hasEffect, TokenCosts.map, hprice]
  · by_cases hlt : lower < upper <;> simp [variantMatches, timeMatches, hp.1, hp.2, hlt]

variable (hdisjoint : DisjointRanges (parseTieredPricing D e.tieredPricing))
  (hbounds : tierBounds t = some (0, upper))
include hdisjoint hbounds

theorem firstTokenTier_eq : firstTokenTier mul (tokenTiers mul D e) =
    some { t with costs := t.costs.map (normalizeOptionalTokenCost mul) } := by
  cases hfind : firstTokenTier mul (tokenTiers mul D e) with
  | none =>
    refine absurd ?_ (find?_eq_none.mp hfind _ (mem_map_of_mem ht))
    rw [Bool.and_eq_true]
    refine ⟨?_, by simp [TokenCosts.map, pricePerMillion_normalized, hprice]⟩
    change (tierBounds t).any _ = true
    simp [hbounds]
  | some base =>
    obtain ⟨t', ht', rfl⟩ := mem_map.mp (mem_of_find?_eq_some hfind)
    have hfound := find?_some hfind
    rw [Bool.and_eq_true, Option.any_eq_true] at hfound
    obtain ⟨⟨lower, upper'⟩, hbounds', hlower⟩ := hfound.1
    obtain rfl : lower = 0 := by simpa using hlower
    rw [hdisjoint t ht t' ht' 0 ⟨0, upper, hbounds, Int.le_refl 0, id⟩
      ⟨0, upper', hbounds', Int.le_refl 0, id⟩]

/-- The base prices are those of the tier from 0 on, if the entry has none of its own. -/
theorem tokenCosts_tier {costs : TokenCosts} (h : tokenCosts mul S D e = some costs)
    (hnone : e.costs = {}) (hprice' : (pricePerMillion mul t.costs.output).isSome) :
    pricePerMillion mul costs.input = pricePerMillion mul t.costs.input ∧
      pricePerMillion mul costs.output = pricePerMillion mul t.costs.output ∧
      pricePerMillion mul costs.cacheRead = pricePerMillion mul t.costs.cacheRead ∧
      pricePerMillion mul costs.cacheCreation = pricePerMillion mul t.costs.cacheCreation := by
  have hfirst := firstTokenTier_eq ht hprice hdisjoint hbounds
  simp only [tokenCosts, Option.ite_none_left_eq_some, hnone, normalizeBaseTokenCost,
    Option.bind_eq_bind, Option.bind_some, Option.some.injEq] at h
  obtain ⟨-, -, -, -, -, -, rfl⟩ := h
  have habsent : normalizeOptionalTokenCost mul none = none := rfl
  simp [baseCosts, hfirst, TokenCosts.map, habsent, pricePerMillion_normalized, hprice, hprice']

end
end

theorem applyComponent_none (set price : Option Int) :
    applyComponent none set price = some (set.or price) := by
  cases set <;> cases price <;> rfl

section
variable {S : Strings} {clock : String → Int × Int} {vars : List PriceVariant} {tier : String}
  {p : Int} {at_ : LocalTime}

theorem variantMatches_raised (model : List Char) (v : PriceVariant) :
    variantMatches clock (raisedVariant S model v) tier p at_ =
      variantMatches clock v tier p at_ := by
  rw [raisedVariant_eq]
  rfl

/-- Where the numbers of the variants say how specific they are, the first match is the best. -/
theorem resolveEntryPrices_best (pe : PriceEntry) (hsorted : vars.Pairwise (·.seq ≤ ·.seq))
    (hbeats : ∀ v ∈ vars, ∀ w ∈ vars, v.seq ≤ w.seq → Beats S v w) :
    let hits := vars.filter (variantMatches clock · tier p at_)
    let priced := resolveEntryPrices clock (some pe) vars tier p at_
    hits = [] ∧ priced = some (basePrices pe) ∨
      ∃ v ∈ hits, (∀ w ∈ hits, Beats S v w) ∧ priced = applyVariant v (basePrices pe) := by
  simp only [resolveEntryPrices]
  cases hfind : vars.find? (variantMatches clock · tier p at_) with
  | none => exact .inl ⟨filter_eq_nil_iff.mpr (find?_eq_none.mp hfind), rfl⟩
  | some v =>
    obtain ⟨hv, hmatch, hleast⟩ := Best.find?_least hsorted (fun _ => Int.le_refl _) hfind
    refine .inr ⟨v, mem_filter.mpr ⟨hv, hmatch⟩, fun w hw => ?_, rfl⟩
    obtain ⟨hw, hmatch⟩ := mem_filter.mp hw
    exact hbeats v hv w hw (hleast w hw hmatch)

end

/-- A request is priced with the most specific of the variants that match it, or with the base row
if none does.  Where all prices of an entry are in disjoint tiers, a request of no special tier is
priced with the tier that contains its prompt, with an output price raised to the floor, and with
the cache prices of the base row where the tier has none. -/
theorem parsed_variant_best {Raw : Type} (mul : ℚ → ℚ → Option ℚ) (S : Strings)
    (D : Decoders Raw) (slice : SeqSort) (clock : String → Int × Int)
    (raw : List (List Char × Raw)) (res : FetchResult) (h : parse mul S D raw = .ok res)
    (source : List Char) (entry : Raw) (hin : (source, entry) ∈ raw) (e : LitellmEntry Raw)
    (he : D.entry entry = some e) (pe : PriceEntry) (hpe : pe ∈ res.priceEntries)
    (hmodel : pe.model = S.trimSpace source) (htoken : pe.mode = .token) (tier : String) (p : Int)
    (at_ : LocalTime) :
    let vars := slice.sort (res.variants.filter (·.model = pe.model))
    let hits := vars.filter (variantMatches clock · tier p at_)
    let priced := resolveEntryPrices clock (some pe) vars tier p at_
    (hits = [] ∧ priced = some (basePrices pe) ∨
      ∃ v ∈ hits, (∀ w ∈ hits, Beats S v w) ∧ priced = applyVariant v (basePrices pe)) ∧
    (e.costs = {} → extractAboveVariants mul D entry = [] →
      tier ∉ ["priority", "flex", "fast"] →
      DisjointRanges (parseTieredPricing D e.tieredPricing) →
      ∀ t ∈ parseTieredPricing D e.tieredPricing, t.Contains p →
        (pricePerMillion mul t.costs.input).isSome → (pricePerMillion mul t.costs.output).isSome →
        ∃ rp, priced = some rp ∧ rp.inputPerM = pricePerMillion mul t.costs.input ∧
          rp.outputPerM = (pricePerMillion mul t.costs.output).map
            ((modelFloor S pe.model).elim id max) ∧
          rp.cacheReadPerM = (pricePerMillion mul t.costs.cacheRead).or pe.cacheReadPerM ∧
          rp.cacheWritePerM =
            (pricePerMillion mul t.costs.cacheCreation).or pe.cacheWritePerM) := by
  intro vars hits priced
  obtain ⟨source', entry', parsed, hin', hne, hparse, hunique⟩ := parse_entry h hpe
  have hvars : ∀ v, v ∈ vars ↔ v ∈ parsed := fun v => by
    rw [(slice.perm _).mem_iff, mem_filter, decide_eq_true_iff]
    exact (parse_row h hin' hne hparse).2 v
  have hsource := (parseModel_some hparse).1
  obtain rfl := hunique source entry hin (hmodel.symm.trans hsource)
  rw [← hsource] at hparse
  obtain ⟨hmode, -⟩ | ⟨e', costs, he', hcosts, -, hinput, houtput, hread, hwrite, rfl⟩ :=
    parseModel_token hparse
  · exact absurd htoken hmode
  obtain rfl : e = e' := Option.some.inj (he.symm.trans he')
  have hbeats : ∀ v ∈ vars, ∀ w ∈ vars, v.seq ≤ w.seq → Beats S v w := by
    intro v hv w hw hle
    obtain ⟨v, hv', rfl⟩ := mem_map.mp ((hvars v).mp hv)
    obtain ⟨w, hw', rfl⟩ := mem_map.mp ((hvars w).mp hw)
    rw [raisedVariant_eq, raisedVariant_eq] at hle ⊢
    exact (beats_of_seq_le hv' hw' hle : Beats S v w)
  have hcases : hits = [] ∧ priced = some (basePrices pe) ∨
      ∃ v ∈ hits, (∀ w ∈ hits, Beats S v w) ∧ priced = applyVariant v (basePrices pe) :=
    resolveEntryPrices_best pe (slice.sorted _) hbeats
  refine ⟨hcases, fun hnone habove htier hdisjoint t ht hp hprice hprice' => ?_⟩
  obtain ⟨n, hn⟩ := Option.isSome_iff_exists.mp hprice'
  rcases hcases with ⟨hmiss, hpriced⟩ | ⟨v, hv, -, hpriced⟩
  · obtain ⟨lower, upper, hbounds, hp⟩ := hp
    by_cases hlower : lower = 0
    · subst hlower
      obtain ⟨hin, hout, hread', hwrite'⟩ :=
        tokenCosts_tier ht hprice hdisjoint hbounds hcosts hnone hprice'
      refine ⟨_, hpriced, hinput.trans hin, houtput.trans ?_, ?_, ?_⟩
      · rw [hout, hn]
        cases modelFloor S pe.model <;> rfl
      · rw [← hread', ← hread, Option.or_self]
        rfl
      · rw [← hwrite', ← hwrite, Option.or_self]
        rfl
    · obtain ⟨v, hv, hmatch⟩ := exists_match ht hprice hbounds hlower hp
      refine absurd ?_ (filter_eq_nil_iff.mp hmiss _
        ((hvars _).mpr (mem_map_of_mem hv)))
      rwa [variantMatches_raised]
  · obtain ⟨hv, hmatch⟩ := mem_filter.mp hv
    obtain ⟨v, hv', rfl⟩ := mem_map.mp ((hvars v).mp hv)
    rw [variantMatches_raised] at hmatch
    obtain ⟨t', ht', hp', hmult, hset⟩ := match_tier habove htier v hv' hmatch
    obtain rfl := hdisjoint t ht t' ht' p hp hp'
    obtain ⟨n', hn'⟩ := Option.isSome_iff_exists.mp hprice
    rw [hpriced, raisedVariant_eq]
    simp [applyVariant, basePrices, hmult, applyComponent_none, hset, hn, hn']

/-- Entry 0 has tier 2 below 100 tokens and tier 3 from there on, each at its number in dollars.
Only the first has a price for cached tokens. -/
def tieredDecoders : Decoders ℕ where
  entry _ := some { tieredPricing := some 1 }
  items _ := some [2, 3]
  tier n := some
    { costs :=
        { input := some (n / 10 ^ 6), output := some (n / 10 ^ 6)
          cacheRead := if n = 2 then some (1 / 10 ^ 6) else none }
      range := if n = 2 then [0, 100] else [100] }
  fields _ := none
  number _ := none
  isNull _ := false
  text _ := ""

/-- Neither the output price of the tier is charged, which is below the floor of the model, nor a
cache price of the tier, which has none. -/
theorem tier_not_charged :
    ((parse (fun a b => some (a * b)) .ascii tieredDecoders [("gpt-5.6".toList, 0)]).toOption.bind
        fun res => resolveEntryPrices (fun _ => (0, 0)) res.priceEntries.head? res.variants "auto"
          150 ⟨0, 0, 0⟩).map (fun rp => (rp.inputPerM, rp.outputPerM, rp.cacheReadPerM)) =
        some (some 300000, some 3000000, some 100000) ∧
      tierBounds ((tieredDecoders.tier 3).getD {}) = some (100, 0) ∧
      (tieredDecoders.tier 3).map (fun t => (pricePerMillion (fun a b => some (a * b))
        t.costs.output, t.costs.cacheRead)) = some (some 300000, none) := by
  decide +kernel

def tieredResult : FetchResult where
  priceEntries := [{ model := ['m'], inputPerM := some 200000, outputPerM := some 200000
                     cacheReadPerM := some 100000 }]
  variants := [{ model := ['m'], seq := 1, ctxMin := some 100, setInputPerM := some 300000,
                 setOutputPerM := some 300000 }]
  models := [['m']]
  skipped := 0

theorem parsed_variant_best_tier :
    ∃ rp, resolveEntryPrices (fun _ => (0, 0)) tieredResult.priceEntries.head?
        tieredResult.variants "auto" 150 ⟨0, 0, 0⟩ = some rp ∧ rp.inputPerM = some 300000 := by
  have hlow : tierBounds ((tieredDecoders.tier 2).getD {}) = some (0, 100) := by decide +kernel
  have hhigh : tierBounds ((tieredDecoders.tier 3).getD {}) = some (100, 0) := by decide +kernel
  have hdisjoint : DisjointRanges (parseTieredPricing tieredDecoders (some 1)) := by
    intro t ht t' ht' p ⟨lower, upper, hb, hp⟩ ⟨lower', upper', hb', hp'⟩
    rcases mem_pair.mp ht with rfl | rfl <;> rcases mem_pair.mp ht' with rfl | rfl
    · rfl
    · cases hlow.symm.trans hb
      cases hhigh.symm.trans hb'
      omega
    · cases hhigh.symm.trans hb
      cases hlow.symm.trans hb'
      omega
    · rfl
  obtain ⟨rp, hpriced, hinput, -⟩ := (parsed_variant_best (fun a b => some (a * b)) .ascii
    tieredDecoders .insertion (fun _ => (0, 0)) [(['m'], 0)] tieredResult (by decide +kernel) ['m']
    0 (mem_singleton_self _) _ rfl _ (mem_singleton_self _) rfl rfl "auto" 150 ⟨0, 0, 0⟩).2 rfl rfl
    (by decide) hdisjoint _ (mem_cons_of_mem _ (mem_singleton_self _))
    ⟨100, 0, hhigh, by decide⟩ (by decide +kernel) (by decide +kernel)
  exact ⟨rp, hpriced, hinput.trans (by decide +kernel)⟩

end C4Gateway.Pricing
