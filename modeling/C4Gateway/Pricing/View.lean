import C4Gateway.Pricing.Alias
import C4Gateway.Pricing.Snapshot

/-! The price snapshot that requests are billed from has two views of the same rows: the billing
view lacks every model with a variant that cannot be represented, and the catalogue has all.  Both
are looked up by alias. -/

namespace C4Gateway.Pricing

open List

/-- `sort.Slice` by the number of a variant; equal numbers may come in any order. -/
structure SeqSort where
  sort : List PriceVariant → List PriceVariant
  perm : ∀ l, (sort l).Perm l
  sorted : ∀ l, (sort l).Pairwise fun a b => a.seq ≤ b.seq

/-- The price components of a row. -/
def PriceEntry.components (e : PriceEntry) : List (Option Int) :=
  [e.inputPerM, e.outputPerM, e.cacheReadPerM, e.cacheWritePerM, e.pricePerCall, e.imgInTokPerM,
    e.imgOutTokPerM, e.pricePerImage]

def priceEntriesEquivalent : Option PriceEntry → Option PriceEntry → Bool
  | some left, some right => left.mode = right.mode && left.components = right.components
  | none, none => true
  | _, _ => false

/-- Two variants with the same number, conditions and effects. -/
def PriceVariant.sameTerms (a b : PriceVariant) : Bool := { a with model := b.model } = b

def priceVariantsEquivalent (left right : List PriceVariant) : Bool :=
  left.length = right.length && (left.zip right).all fun p => p.1.sameTerms p.2

section
variable (S : Strings) (slice : SeqSort) (rows : List PriceEntry) (variants : List PriceVariant)

def sortedModelKeys (keys : List (List Char)) : List (List Char) := sortStrings keys

/-- The row of a model in the catalogue: a later row takes the place of an earlier one. -/
def catalogueRow (model : List Char) : Option PriceEntry :=
  if model = [] then none else rows.reverse.find? fun e => S.trimSpace e.model = model

def catalogueModels : List (List Char) :=
  ((rows.map fun e => S.trimSpace e.model).filter (· ≠ [])).dedup

def variantsOf (model : List Char) : List PriceVariant :=
  if model = [] then [] else slice.sort (variants.filter fun v => S.trimSpace v.model = model)

/-- Every variant of the model can be represented. -/
def usable (model : List Char) : Bool :=
  (catalogueRow S rows model).all fun entry =>
    (variantsOf S slice variants model).all fun v => (validateVariantPricePrecision entry v).isNone

/-- The prices in force and those of the catalogue, by model. -/
structure PriceSnapshot where
  entries : List Char → Option PriceEntry
  catalogue : List Char → Option PriceEntry
  variants : List Char → List PriceVariant
  entryKeys : List (List Char)
  catalogueKeys : List (List Char)

def loadPricingSnapshot : PriceSnapshot where
  entries model := if usable S slice rows variants model then catalogueRow S rows model else none
  catalogue := catalogueRow S rows
  variants model :=
    if usable S slice rows variants model then variantsOf S slice variants model else []
  entryKeys := sortedModelKeys ((catalogueModels S rows).filter (usable S slice rows variants))
  catalogueKeys := sortedModelKeys (catalogueModels S rows)

end

section
variable (S : Strings) (clock : String → Int × Int) (snap : PriceSnapshot)

def priceLookupKey (keys : List (List Char)) (requested : List Char)
    (entries : List Char → Option PriceEntry) (variants : List Char → List PriceVariant) :
    Option (List Char) :=
  modelLookupKeyCoalesced S keys requested fun left right =>
    priceEntriesEquivalent (entries left) (entries right) &&
      priceVariantsEquivalent (variants left) (variants right)

/-- The key of the row that a request for the model is priced from. -/
def billingKey (model : List Char) : Option (List Char) :=
  priceLookupKey S snap.entryKeys model snap.entries snap.variants

def resolvePrices (model : List Char) (promptTokens : Int) (tier : String) (at_ : LocalTime) :
    Option ResolvedPrices :=
  let model := S.trimSpace model
  if model = [] then none
  else do
    let key ← billingKey S snap model
    resolveEntryPrices clock (snap.entries key) (snap.variants key) tier promptTokens at_

def wanted (models : List (List Char)) : List (List Char) :=
  (models.map S.trimSpace).filter (· ≠ [])

/-- The row of the catalogue that is reported for a model. -/
def catalogueEntry (model : List Char) : Option PriceEntry := do
  let key ← priceLookupKey S snap.catalogueKeys model snap.catalogue fun _ => []
  snap.catalogue key

def priceEntriesForModels (models : List (List Char)) (model : List Char) : Option PriceEntry :=
  if model ∈ wanted S models then catalogueEntry S snap model else none

def pricingProjectionForModels (models : List (List Char)) (tier : String) (promptTokens : Int)
    (at_ : LocalTime) : (List Char → Option PriceEntry) × (List Char → Option ResolvedPrices) :=
  (fun model => if model ∈ wanted S models then catalogueEntry S snap model else none,
    fun model =>
      if model ∈ wanted S models then do
        let key ← billingKey S snap model
        resolveEntryPrices clock (snap.entries key) (snap.variants key) tier promptTokens at_
      else none)

end

variable {S : Strings} {slice : SeqSort} {rows : List PriceEntry} {variants : List PriceVariant}

variable {snap : PriceSnapshot}

section
variable {m : List Char}

theorem mem_catalogueModels :
    m ∈ catalogueModels S rows ↔ m ≠ [] ∧ ∃ e ∈ rows, S.trimSpace e.model = m := by
  simp only [catalogueModels, mem_dedup, mem_filter, mem_map, decide_eq_true_eq]
  exact and_comm

theorem sortStrings_filter (l : List (List Char)) (p : List Char → Bool) :
    sortStrings (l.filter p) = (sortStrings l).filter p := by
  have hperm : (sortStrings (l.filter p)).Perm ((sortStrings l).filter p) :=
    (perm_insertionSort _ _).trans ((perm_insertionSort _ l).symm.filter p)
  refine hperm.eq_of_pairwise (fun a b _ _ => le_antisymm) ?_ ?_
  · exact pairwise_insertionSort _ _
  · exact (pairwise_insertionSort _ l).filter p

section

variable (hsnap : loadPricingSnapshot S slice rows variants = snap)
include hsnap

theorem entryKeys_eq :
    snap.entryKeys = snap.catalogueKeys.filter (usable S slice rows variants) := by
  subst hsnap
  exact sortStrings_filter _ _

theorem mem_catalogueKeys :
    m ∈ snap.catalogueKeys ↔ m ≠ [] ∧ ∃ e ∈ rows, S.trimSpace e.model = m := by
  subst hsnap
  exact (mem_insertionSort _).trans mem_catalogueModels

theorem nodup_catalogueKeys : snap.catalogueKeys.Nodup := by
  subst hsnap
  exact (perm_insertionSort _ _).nodup_iff.mpr (nodup_dedup _)

/-- The keys are trimmed already, so the lookup takes them as they are. -/
theorem normalized_keys {keys : List (List Char)} (h : ∀ m ∈ keys, m ∈ snap.catalogueKeys) :
    (keys.map S.trimSpace).filter (· ≠ []) = keys := by
  have htrim : ∀ m ∈ keys, S.trimSpace m = m := by
    intro m hm
    obtain ⟨-, e, -, rfl⟩ := (mem_catalogueKeys hsnap).mp (h m hm)
    exact S.trimSpace_trimSpace e.model
  rw [map_congr_left htrim, map_id']
  exact filter_eq_self.mpr fun m hm => by simp [((mem_catalogueKeys hsnap).mp (h m hm)).1]

end

theorem catalogueRow_some {e : PriceEntry} (h : catalogueRow S rows m = some e) :
    S.trimSpace e.model = m := by
  unfold catalogueRow at h
  split_ifs at h
  simpa using find?_some h

end

section
variable {model key first : List Char} {rest : List (List Char)} {keys : List (List Char)}

section

variable (hsnap : loadPricingSnapshot S slice rows variants = snap)
  (hne : S.trimSpace model ≠ [])
include hne

theorem candidates_exact (h : S.trimSpace model ∈ keys) :
    modelLookupCandidates S keys model = [S.trimSpace model] := by
  rw [modelLookupCandidates, if_neg hne, if_pos h]

include hsnap

theorem candidates_ranked (h : S.trimSpace model ∉ keys)
    (hkeys : ∀ m ∈ keys, m ∈ snap.catalogueKeys) :
    modelLookupCandidates S keys model =
      Best.collect (fun key => modelAliasRank S key (.of S (S.trimSpace model))) keys := by
  rw [modelLookupCandidates, if_neg hne, if_neg h, normalized_keys hsnap hkeys]

/-- The candidates of the billing view are the usable ones of the catalogue, if the catalogue's
first is usable. -/
theorem candidates_entryKeys (hfirst : first ∈ modelLookupCandidates S snap.catalogueKeys model)
    (husable : usable S slice rows variants first = true) :
    modelLookupCandidates S snap.entryKeys model =
      (modelLookupCandidates S snap.catalogueKeys model).filter
        (usable S slice rows variants) := by
  rw [entryKeys_eq hsnap]
  by_cases hin : S.trimSpace model ∈ snap.catalogueKeys
  · rw [candidates_exact hne hin] at hfirst ⊢
    rw [mem_singleton.mp hfirst] at husable
    rw [candidates_exact hne (mem_filter.mpr ⟨hin, husable⟩), filter_singleton, husable]
    rfl
  · have hout : S.trimSpace model ∉ snap.catalogueKeys.filter (usable S slice rows variants) :=
      fun h => hin (mem_filter.mp h).1
    rw [candidates_ranked hsnap hne hin fun _ h => h] at hfirst ⊢
    rw [candidates_ranked hsnap hne hout fun _ h => (mem_filter.mp h).1]
    exact Best.collect_filter (nodup_catalogueKeys hsnap) hfirst husable

/-- A model that is found in the billing view is found in the catalogue. -/
theorem candidates_catalogue (hkey : key ∈ modelLookupCandidates S snap.entryKeys model) :
    ∃ first rest, modelLookupCandidates S snap.catalogueKeys model = first :: rest := by
  rw [← ne_nil_iff_exists_cons]
  by_cases hin : S.trimSpace model ∈ snap.catalogueKeys
  · rw [candidates_exact hne hin]
    exact cons_ne_nil _ _
  · have hsub : ∀ m ∈ snap.entryKeys, m ∈ snap.catalogueKeys := by
      rw [entryKeys_eq hsnap]
      exact fun m h => (mem_filter.mp h).1
    have hnodup : snap.entryKeys.Nodup := entryKeys_eq hsnap ▸ (nodup_catalogueKeys hsnap).filter _
    rw [candidates_ranked hsnap hne (fun h => hin (hsub _ h)) hsub,
      Best.mem_collect hnodup] at hkey
    rw [candidates_ranked hsnap hne hin fun _ h => h]
    exact Best.collect_ne_nil (nodup_catalogueKeys hsnap) (hsub key hkey.1) hkey.2.1

end

theorem modelLookupKeyCoalesced_eq_some {equivalent : List Char → List Char → Bool} :
    modelLookupKeyCoalesced S keys model equivalent = some key ↔
      ∃ rest, modelLookupCandidates S keys model = key :: rest ∧
        ∀ m ∈ rest, equivalent key m = true := by
  unfold modelLookupKeyCoalesced
  cases hcands : modelLookupCandidates S keys model with
  | nil => simp
  | cons first rest =>
    simp only
    by_cases hall : rest.all (equivalent first) = true
    · rw [if_pos hall]
      constructor
      · intro h
        cases h
        exact ⟨rest, rfl, all_eq_true.mp hall⟩
      · rintro ⟨rest', hcons, -⟩
        rw [(List.cons.inj hcons).1]
    · rw [if_neg hall]
      refine iff_of_false (by simp) ?_
      rintro ⟨rest', hcons, hrest⟩
      cases hcons
      exact hall (all_eq_true.mpr hrest)

theorem catalogueEntry_eq_some (e : PriceEntry) : catalogueEntry S snap model = some e ↔
      ∃ first rest, modelLookupCandidates S snap.catalogueKeys model = first :: rest ∧
        (∀ m ∈ rest, priceEntriesEquivalent (snap.catalogue first) (snap.catalogue m) = true) ∧
        snap.catalogue first = some e := by
  have hnil : priceVariantsEquivalent [] [] = true := rfl
  simp only [catalogueEntry, priceLookupKey, Option.bind_eq_bind, Option.bind_eq_some_iff,
    modelLookupKeyCoalesced_eq_some, hnil, Bool.and_true]
  constructor
  · rintro ⟨first, ⟨rest, hcands, hrest⟩, hrow⟩
    exact ⟨first, rest, hcands, hrest, hrow⟩
  · rintro ⟨first, rest, hcands, hrest, hrow⟩
    exact ⟨first, ⟨rest, hcands, hrest⟩, hrow⟩

/-- The catalogue's first candidate is billable, and every candidate that is not has its prices. -/
def FirstBillable (S : Strings) (slice : SeqSort) (rows : List PriceEntry)
    (variants : List PriceVariant) (model : List Char) : Prop :=
  ∀ first rest, modelLookupCandidates S
      (loadPricingSnapshot S slice rows variants).catalogueKeys model = first :: rest →
    usable S slice rows variants first = true ∧
      ∀ m ∈ rest, usable S slice rows variants m = false →
        priceEntriesEquivalent (catalogueRow S rows first) (catalogueRow S rows m) = true

theorem reported_iff (hne : S.trimSpace model ≠ []) {row : PriceEntry}
    (hkey : billingKey S (loadPricingSnapshot S slice rows variants) model = some key)
    (hrow : (loadPricingSnapshot S slice rows variants).entries key = some row) :
    catalogueEntry S (loadPricingSnapshot S slice rows variants) model = some row ↔
      FirstBillable S slice rows variants model := by
  obtain ⟨restE, hcandsE, hrestE⟩ := modelLookupKeyCoalesced_eq_some.mp hkey
  obtain ⟨first, rest, hcands⟩ := candidates_catalogue rfl hne (hcandsE ▸ mem_cons_self)
  have hkeyRow : usable S slice rows variants key = true ∧ catalogueRow S rows key = some row := by
    simpa [loadPricingSnapshot] using hrow
  have huse : ∀ m, usable S slice rows variants m = true →
      (loadPricingSnapshot S slice rows variants).entries m = catalogueRow S rows m :=
    fun m hm => if_pos hm
  rw [catalogueEntry_eq_some]
  constructor
  · rintro ⟨first', rest', hcands', hequiv, hfirst⟩ first'' rest'' hcands''
    cases hcands'.symm.trans hcands''
    have hsame : first' = key := (catalogueRow_some hfirst).symm.trans (catalogueRow_some hkeyRow.2)
    exact ⟨hsame ▸ hkeyRow.1, fun m hm _ => hequiv m hm⟩
  · intro hbillable
    obtain ⟨husable, hexcluded⟩ := hbillable first rest hcands
    have hfilter := candidates_entryKeys rfl hne (hcands ▸ mem_cons_self) husable
    rw [hcandsE, hcands, filter_cons_of_pos husable] at hfilter
    obtain ⟨rfl, rfl⟩ := List.cons.inj hfilter
    refine ⟨key, rest, hcands, fun m hm => ?_, hkeyRow.2⟩
    cases hm' : usable S slice rows variants m with
    | false => exact hexcluded m hm hm'
    | true =>
      have hequiv := hrestE m (mem_filter.mpr ⟨hm, hm'⟩)
      rw [Bool.and_eq_true, huse key husable, huse m hm'] at hequiv
      exact hequiv.1

end

/-- The row that a request for the model is priced from. -/
def billedRow (S : Strings) (snap : PriceSnapshot) (model : List Char) : Option PriceEntry :=
  (billingKey S snap (S.trimSpace model)).bind snap.entries

/-- Whenever a request is priced, its row is the one that is reported for the model exactly if the
catalogue's first candidate is in the billing view and the excluded ones have the same prices. -/
theorem billed_row_reported_iff (S : Strings) (slice : SeqSort) (clock : String → Int × Int)
    (rows : List PriceEntry) (variants : List PriceVariant) (model : List Char)
    (models : List (List Char)) (hwanted : model ∈ models) (promptTokens : Int) (tier : String)
    (at_ : LocalTime) (rp : ResolvedPrices)
    (h : resolvePrices S clock (loadPricingSnapshot S slice rows variants) model promptTokens tier
      at_ = some rp) :
    (∃ row, billedRow S (loadPricingSnapshot S slice rows variants) model = some row ∧
        priceEntriesForModels S (loadPricingSnapshot S slice rows variants) models
          (S.trimSpace model) = some row ∧
        (pricingProjectionForModels S clock (loadPricingSnapshot S slice rows variants) models tier
          promptTokens at_).1 (S.trimSpace model) = some row) ↔
      FirstBillable S slice rows variants (S.trimSpace model) := by
  unfold resolvePrices at h
  simp only at h
  split_ifs at h with hne
  obtain ⟨key, hkey, hresolve⟩ := Option.bind_eq_some_iff.mp h
  cases hrow : (loadPricingSnapshot S slice rows variants).entries key with
  | none =>
    rw [hrow] at hresolve
    cases hresolve
  | some row =>
    have hin : S.trimSpace model ∈ wanted S models := by
      simp only [wanted, mem_filter, mem_map, decide_eq_true_eq]
      exact ⟨⟨model, hwanted, rfl⟩, hne⟩
    have hbilled : billedRow S (loadPricingSnapshot S slice rows variants) model = some row := by
      rw [billedRow, hkey, Option.bind_some, hrow]
    have hiff := reported_iff (by rwa [S.trimSpace_trimSpace]) hkey hrow
    simp [priceEntriesForModels, pricingProjectionForModels, if_pos hin, ← hiff, hbilled]

/-- The stable sort by number. -/
def SeqSort.insertion : SeqSort where
  sort l := l.insertionSort fun a b => a.seq ≤ b.seq
  perm := perm_insertionSort _
  sorted := pairwise_insertionSort _

/-- A model whose only variant takes the price off the grid, and the row of another provider. -/
def excludedRows : List PriceEntry :=
  [{ model := "gpt-x".toList, inputPerM := some 3 },
    { model := "other/gpt-x".toList, inputPerM := some 100 }]

def excludedVariants : List PriceVariant :=
  [{ model := "gpt-x".toList, seq := 0, serviceTier := some "fast", multBP := some 11000 }]

theorem billed_from_other_provider :
    billedRow .ascii (loadPricingSnapshot .ascii .insertion excludedRows excludedVariants)
        "gpt-x".toList = some { model := "other/gpt-x".toList, inputPerM := some 100 } ∧
      (resolvePrices .ascii (fun _ => (0, 0))
        (loadPricingSnapshot .ascii .insertion excludedRows excludedVariants) "gpt-x".toList 0 ""
        ⟨0, 0, 0⟩).isSome = true ∧
      priceEntriesForModels .ascii
        (loadPricingSnapshot .ascii .insertion excludedRows excludedVariants) ["gpt-x".toList]
        "gpt-x".toList = some { model := "gpt-x".toList, inputPerM := some 3 } := by
  decide +kernel

theorem billed_row_reported_alias :
    FirstBillable .ascii .insertion [{ model := "other/gpt-x".toList, inputPerM := some 100 }] []
      "gpt-x".toList :=
  (billed_row_reported_iff .ascii .insertion (fun _ => (0, 0))
    [{ model := "other/gpt-x".toList, inputPerM := some 100 }] [] "gpt-x".toList ["gpt-x".toList]
    mem_cons_self 0 "" ⟨0, 0, 0⟩ { mode := .token, inputPerM := some 100 }
    (by decide +kernel)).mp ⟨{ model := "other/gpt-x".toList, inputPerM := some 100 },
      by decide +kernel⟩

end C4Gateway.Pricing
