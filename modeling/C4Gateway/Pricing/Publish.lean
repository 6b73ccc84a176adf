import C4Gateway.Pricing.Snapshot

/-! What a published snapshot leaves in the price tables: the official rows and variants are the
candidate's, and the manual ones are as before. -/

namespace C4Gateway.Pricing

open List
open PriceEntry (isOfficial isManual)

open Sql Text

def PriceEntry.trimmed (e : PriceEntry) : PriceEntry := { e with model := trimSpace e.model }

def PriceVariant.trimmed (v : PriceVariant) : PriceVariant := { v with model := trimSpace v.model }

variable {models : List (List Char)} {m : List Char}

section

theorem mem_normalizeModelList :
    m ∈ normalizeModelList models ↔ m ≠ [] ∧ ∃ x ∈ models, trimSpace x = m := by
  simp only [normalizeModelList, sortStrings, mem_insertionSort, mem_dedup, mem_filter, mem_map,
    decide_eq_true_eq]
  exact and_comm

theorem nodup_normalizeModelList (models : List (List Char)) : (normalizeModelList models).Nodup :=
  (perm_insertionSort _ _).nodup_iff.mpr (nodup_dedup _)

theorem normalizeModelList_perm (hnodup : models.Nodup)
    (htrim : ∀ m ∈ models, m ≠ [] ∧ trimSpace m = m) : (normalizeModelList models).Perm models := by
  rw [perm_ext_iff_of_nodup (nodup_normalizeModelList models) hnodup]
  intro m
  rw [mem_normalizeModelList]
  constructor
  · rintro ⟨-, x, hx, rfl⟩
    rwa [(htrim x hx).2]
  · intro hm
    exact ⟨(htrim m hm).1, m, hm, (htrim m hm).2⟩

theorem checkEntries_ok {seen : List (List Char)} {rows : List (Option PriceEntry)}
    {ordered : List PriceEntry} (h : checkEntries models seen rows = .ok ordered) :
    (∃ es : List PriceEntry, rows = es.map some ∧ ordered = es.map PriceEntry.trimmed) ∧
      (ordered.map PriceEntry.model).Nodup ∧
      ∀ e ∈ ordered, e.model ≠ [] ∧ e.model ∉ seen ∧ e.model ∈ models := by
  induction rows generalizing seen ordered with
  | nil =>
    cases h
    exact ⟨⟨[], rfl, rfl⟩, nodup_nil, by simp⟩
  | cons row rest ih =>
    cases row with
    | none => cases h
    | some entry =>
      simp only [checkEntries, ite_error_eq_ok_iff, bind_eq_ok_iff, Except.ok.injEq, not_not] at h
      obtain ⟨hne, hnew, hin, tail, hrest, rfl⟩ := h
      obtain ⟨⟨es, rfl, rfl⟩, hnodup, hall⟩ := ih hrest
      refine ⟨⟨entry :: es, rfl, rfl⟩, ?_, ?_⟩
      · rw [map_cons, nodup_cons]
        refine ⟨fun hmem => ?_, hnodup⟩
        obtain ⟨e, he, heq⟩ := mem_map.mp hmem
        exact (hall e he).2.1 (heq ▸ mem_cons_self)
      · refine forall_mem_cons.mpr ⟨⟨hne, hnew, hin⟩, fun e he => ?_⟩
        obtain ⟨h1, h2, h3⟩ := hall e he
        exact ⟨h1, fun hmem => h2 (mem_cons_of_mem _ hmem), h3⟩

theorem checkVariants_ok {rows : List (Option PriceVariant)} {normalized : List PriceVariant}
    (h : checkVariants models rows = .ok normalized) :
    (∃ vs : List PriceVariant, rows = vs.map some ∧ normalized = vs.map PriceVariant.trimmed) ∧
      ∀ v ∈ normalized, v.model ∈ models := by
  induction rows generalizing normalized with
  | nil =>
    cases h
    exact ⟨⟨[], rfl, rfl⟩, by simp⟩
  | cons row rest ih =>
    cases row with
    | none => cases h
    | some variant =>
      simp only [checkVariants, ite_error_eq_ok_iff, bind_eq_ok_iff, Except.ok.injEq, not_not] at h
      obtain ⟨-, hin, tail, hrest, rfl⟩ := h
      obtain ⟨⟨vs, rfl, rfl⟩, hall⟩ := ih hrest
      exact ⟨⟨variant :: vs, rfl, rfl⟩, forall_mem_cons.mpr ⟨hin, hall⟩⟩

/-- What the checks of a candidate establish. -/
structure Checked (es : List PriceEntry) (vs : List PriceVariant) (models : List (List Char))
    (c : Candidate) : Prop where
  models_eq : c.models = normalizeModelList models
  nonempty : c.models ≠ []
  entries_perm : c.entries.Perm (es.map PriceEntry.trimmed)
  variants_eq : c.variants = vs.map PriceVariant.trimmed
  rows : (c.entries.map PriceEntry.model).Perm c.models
  priced : ∀ v ∈ c.variants, v.model ∈ c.models

theorem checkSnapshot_ok {entries : List (Option PriceEntry)}
    {variants : List (Option PriceVariant)} {c : Candidate}
    (h : checkSnapshot entries variants models = .ok c) :
    ∃ es vs, entries = es.map some ∧ variants = vs.map some ∧ Checked es vs models c := by
  simp only [checkSnapshot, ite_error_eq_ok_iff, bind_eq_ok_iff, Except.ok.injEq, not_not] at h
  obtain ⟨hne, ordered, hentries, hlen, normalized, hvariants, rfl⟩ := h
  obtain ⟨⟨es, rfl, rfl⟩, hnodup, hall⟩ := checkEntries_ok hentries
  obtain ⟨⟨vs, rfl, rfl⟩, hpriced⟩ := checkVariants_ok hvariants
  have hsort := perm_insertionSort (fun a b : PriceEntry => a.model ≤ b.model)
    (es.map PriceEntry.trimmed)
  refine ⟨es, vs, rfl, rfl, rfl, hne, hsort, rfl, ?_, hpriced⟩
  -- A list without repetitions, inside the models and as long, has all of them.
  refine (hsort.map PriceEntry.model).trans (Subperm.perm_of_length_le ?_ ?_)
  · refine subperm_of_subset hnodup fun m hm => ?_
    obtain ⟨e, he, rfl⟩ := mem_map.mp hm
    exact (hall e he).2.2
  · rw [length_map]
    exact hlen.ge

end

variable {faults : Statement → Bool} {cat : Catalogue} {now : Int} {c : Candidate}
  {tables : List PriceEntry × List PriceVariant} {n nVar : Nat}

section
variable {entries : List PriceEntry} {variants : List PriceVariant}
  {models withVariants manual : List (List Char)}

theorem mem_trimmedModels {l : List (List Char)} :
    m ∈ trimmedModels l ↔ m ≠ [] ∧ ∃ x ∈ l, trimSpace x = m := by
  simp only [trimmedModels, mem_filter, mem_map, decide_eq_true_eq]
  exact and_comm

theorem mem_manualCandidates (htrim : ∀ m ∈ models, m ≠ [] ∧ trimSpace m = m) :
    m ∈ manualCandidates entries models ↔
      m ∈ models ∧ m ∈ modelsWhere isManual entries := by
  simp only [manualCandidates, mem_dedup, mem_trimmedModels, mem_modelsWhere, Bool.and_eq_true,
    decide_eq_true_eq]
  constructor
  · rintro ⟨-, x, ⟨e, he, ⟨hmanual, hin⟩, rfl⟩, rfl⟩
    rw [(htrim _ hin).2]
    exact ⟨hin, e, he, hmanual, rfl⟩
  · rintro ⟨hin, e, he, hmanual, rfl⟩
    exact ⟨(htrim _ hin).1, e.model, ⟨e, he, ⟨hmanual, hin⟩, rfl⟩, (htrim _ hin).2⟩

/-- A model has one row, so it is not both official and manual. -/
theorem not_manual_of_official (hkeys : (entries.map PriceEntry.model).Nodup)
    (h : m ∈ modelsWhere isOfficial entries) :
    m ∉ modelsWhere isManual entries := by
  intro hmanual
  obtain ⟨e, he, hofficial, rfl⟩ := mem_modelsWhere.mp h
  obtain ⟨e', he', hmanual', hmodel⟩ := mem_modelsWhere.mp hmanual
  rw [inj_on_of_nodup_map hkeys he' he hmodel] at hmanual'
  rw [isOfficial_iff, hmanual'] at hofficial
  cases hofficial

theorem mem_staleModels : m ∈ staleModels entries models ↔
    m ∈ modelsWhere isOfficial entries ∧ m ∉ models ∧ trimSpace m ≠ [] := by
  simp only [staleModels, mem_filter, mem_modelsWhere, Bool.and_eq_true, decide_eq_true_eq]
  constructor
  · rintro ⟨⟨e, he, ⟨hofficial, hout⟩, rfl⟩, hblank⟩
    exact ⟨⟨e, he, hofficial, rfl⟩, hout, hblank⟩
  · rintro ⟨⟨e, he, hofficial, rfl⟩, hout, hblank⟩
    exact ⟨⟨e, he, ⟨hofficial, hout⟩, rfl⟩, hblank⟩

theorem mem_officialClear :
    m ∈ officialClear models withVariants manual ↔ m ∈ models ∧ m ∉ withVariants ∧ m ∉ manual := by
  simp only [officialClear, mem_filter, decide_eq_true_eq, and_assoc]

theorem mem_reconciled_entries (hblank : ∀ e ∈ entries, trimSpace e.model ≠ []) (e : PriceEntry) :
    e ∈ (reconciled entries variants models withVariants manual).1 ↔
      e ∈ entries ∧ (e.isOfficial = true → e.model ∈ models) := by
  simp only [reconciled, mem_filter, Bool.not_eq_true', Bool.and_eq_false_iff,
    decide_eq_false_iff_not, mem_staleModels]
  refine and_congr_right fun he => ?_
  constructor
  · rintro (hnot | hkept) hofficial
    · rw [hofficial] at hnot
      cases hnot
    · by_contra hout
      exact hkept ⟨mem_modelsWhere.mpr ⟨e, he, hofficial, rfl⟩, hout, hblank e he⟩
  · intro hin
    cases hofficial : e.isOfficial with
    | false => exact .inl rfl
    | true => exact .inr fun hstale => hstale.2.1 (hin hofficial)

/-- The variants of a model that is neither stale nor cleared are kept. -/
theorem ofModel_reconciled_kept
    (hstale : m ∈ modelsWhere isOfficial entries → m ∈ models)
    (hcleared : m ∈ models → m ∈ withVariants ∨ m ∈ manual) :
    ofModel m (reconciled entries variants models withVariants manual).2 = ofModel m variants := by
  have hnotStale : m ∉ staleModels entries models := fun h =>
    (mem_staleModels.mp h).2.1 (hstale (mem_staleModels.mp h).1)
  have hnotCleared : m ∉ officialClear models withVariants manual := by
    rw [mem_officialClear]
    rintro ⟨hin, hwithout, hofficial⟩
    exact (hcleared hin).elim hwithout hofficial
  rw [reconciled, ofModel_filter_notMem, if_neg hnotCleared, ofModel_filter_notMem,
    if_neg hnotStale]

theorem ofModel_reconciled_cleared (hmodels : m ∈ models) (hwithout : m ∉ withVariants)
    (hofficial : m ∉ manual) :
    ofModel m (reconciled entries variants models withVariants manual).2 = [] := by
  rw [reconciled, ofModel_filter_notMem,
    if_pos (mem_officialClear.mpr ⟨hmodels, hwithout, hofficial⟩)]

end

variable {es : List PriceEntry} {vs : List PriceVariant} {n nVar : Nat}

namespace Checked

variable (hc : Checked es vs models c)
include hc

theorem trim {m : List Char} (hm : m ∈ c.models) : m ≠ [] ∧ trimSpace m = m := by
  rw [hc.models_eq, mem_normalizeModelList] at hm
  obtain ⟨hne, x, -, rfl⟩ := hm
  exact ⟨hne, trimSpace_trimSpace x⟩

theorem nodup : c.models.Nodup := hc.models_eq ▸ nodup_normalizeModelList models

theorem keys : (c.entries.map PriceEntry.model).Nodup := hc.rows.nodup_iff.mpr hc.nodup

theorem normalized_perm : (normalizeModelList c.models).Perm c.models :=
  normalizeModelList_perm hc.nodup fun _ hm => hc.trim hm

theorem normalized_ne : normalizeModelList c.models ≠ [] := fun h =>
  hc.nonempty (h ▸ hc.normalized_perm.symm).eq_nil

theorem row_model {x : PriceEntry} (hx : x ∈ c.entries) : x.model ∈ c.models :=
  hc.rows.mem_iff.mp (mem_map_of_mem hx)

variable (h : publish faults cat now c = .ok (tables, n, nVar))
include h

/-- The steps of a transaction that commits. -/
theorem tables_eq : ∃ variants,
    replaceAll faults (filteredVariants cat.entries c.variants) cat.variants
        (variantModels (filteredVariants cat.entries c.variants)) = .ok variants ∧
      tables = reconciled (upsertEntries now cat.entries c.entries) variants
        (normalizeModelList c.models)
        (normalizeModelList ((filteredVariants cat.entries c.variants).map PriceVariant.model))
        (manualCandidates (upsertEntries now cat.entries c.entries)
          (normalizeModelList c.models)) := by
  simp only [publish, bind_eq_ok_iff] at h
  obtain ⟨-, -, -, -, h⟩ := h
  split at h
  · cases h
  simp only [bind_eq_ok_iff, guarded_eq_ok_iff, Except.ok.injEq, Prod.mk.injEq] at h
  obtain ⟨variants, hreplace, _, ⟨-, hreconcile⟩, -, -, -, rfl, -⟩ := h
  simp only [reconcileLiteLLMSnapshot, if_neg hc.normalized_ne, ite_error_eq_ok_iff,
    Except.ok.injEq] at hreconcile
  exact ⟨variants, hreplace, hreconcile.2.symm⟩

theorem publish_models :
    (tables.1.map PriceEntry.model).Nodup ∧ (tables.2.map PriceVariant.key).Nodup ∧
      ∀ e ∈ tables.1, e.model ≠ [] := by
  obtain ⟨variants, hreplace, rfl⟩ := hc.tables_eq h
  refine ⟨?_, ?_, ?_⟩
  · exact (keys_upsertEntries cat.models).sublist (filter_sublist.map _)
  · exact (replaceAll_keys cat.seqs hreplace).sublist
      ((filter_sublist.trans filter_sublist).map _)
  · intro e he
    exact named_upsertEntries (fun x hx => (hc.trim (hc.row_model hx)).1) cat.named hc.keys
      cat.models e (mem_filter.mp he).1

end Checked

theorem checkSnapshot_publish {entries : List (Option PriceEntry)}
    {variants : List (Option PriceVariant)}
    (hcheck : checkSnapshot entries variants models = .ok c)
    (h : publish faults cat now c = .ok (tables, n, nVar)) :
    (tables.1.map PriceEntry.model).Nodup ∧ (tables.2.map PriceVariant.key).Nodup ∧
      ∀ e ∈ tables.1, e.model ≠ [] := by
  obtain ⟨es, vs, -, -, hc⟩ := checkSnapshot_ok hcheck
  exact hc.publish_models h

/-- The stored catalogue after the call, and what the call returns.  The deferred rollback undoes
the writes of a transaction that does not commit. -/
def applyLiteLLMSnapshot (faults : Statement → Bool) (cat : Catalogue) (now : Int)
    (entries : List (Option PriceEntry)) (variants : List (Option PriceVariant))
    (models : List (List Char)) : Catalogue × Except SnapshotError (Nat × Nat) :=
  match hcheck : checkSnapshot entries variants models with
  | .error f => (cat, .error f)
  | .ok c =>
    match hpublish : publish faults cat now c with
    | .error f => (cat, .error f)
    | .ok (tables, n, nVar) =>
      (⟨tables.1, tables.2, (checkSnapshot_publish hcheck hpublish).1,
        (checkSnapshot_publish hcheck hpublish).2.1, (checkSnapshot_publish hcheck hpublish).2.2⟩,
        .ok (n, nVar))

variable {entries : List (Option PriceEntry)} {variants : List (Option PriceVariant)}

theorem applyLiteLLMSnapshot_ok
    (h : (applyLiteLLMSnapshot faults cat now entries variants models).2 = .ok (n, nVar)) :
    ∃ c, checkSnapshot entries variants models = .ok c ∧
      publish faults cat now c =
        .ok (((applyLiteLLMSnapshot faults cat now entries variants models).1.entries,
          (applyLiteLLMSnapshot faults cat now entries variants models).1.variants), n, nVar) := by
  unfold applyLiteLLMSnapshot at h ⊢
  split at h
  · cases h
  next c hcheck =>
  split at h
  · cases h
  next tables n' nVar' hpublish =>
  cases h
  exact ⟨c, hcheck, hpublish⟩

theorem applyLiteLLMSnapshot_error {f : SnapshotError}
    (h : (applyLiteLLMSnapshot faults cat now entries variants models).2 = .error f) :
    (applyLiteLLMSnapshot faults cat now entries variants models).1 = cat := by
  unfold applyLiteLLMSnapshot at h ⊢
  split at h
  · rfl
  split at h
  · rfl
  · cases h

/-- The columns of a row that a candidate's row sets. -/
def PriceEntry.SameColumns (e x : PriceEntry) : Prop :=
  e = { x with
    model := e.model, source := e.source, createdAt := e.createdAt, updatedAt := e.updatedAt }

/-- The catalogue after the publication of a candidate. -/
structure Published (before after : Catalogue) (entries : List (Option PriceEntry))
    (variants : List (Option PriceVariant)) (models : List (List Char)) : Prop where
  official : ∀ m, m ∈ modelsWhere isOfficial after.entries ↔
    m ∈ normalizeModelList models ∧ m ∉ modelsWhere isManual before.entries
  prices : ∀ e ∈ after.entries, e.isOfficial = true →
    ∃ x, some x ∈ entries ∧ trimSpace x.model = e.model ∧ e.SameColumns x
  variants : ∀ m ∈ modelsWhere isOfficial after.entries,
    (ofModel m after.variants).Perm (ofModel m (variants.reduceOption.map PriceVariant.trimmed))
  manual : ∀ e, (e ∈ after.entries ∧ e.isManual = true) ↔ (e ∈ before.entries ∧ e.isManual = true)
  manualVariants : ∀ m ∈ modelsWhere isManual before.entries,
    ofModel m after.variants = ofModel m before.variants

theorem mem_variantModels {variants : List PriceVariant} :
    m ∈ variantModels variants ↔ ofModel m variants ≠ [] := by
  simp [variantModels, sortStrings, ofModel]

theorem nodup_variantModels (variants : List PriceVariant) : (variantModels variants).Nodup :=
  (perm_insertionSort _ _).nodup_iff.mpr (nodup_dedup _)

theorem ofModel_filteredVariants {entries : List PriceEntry} {variants : List PriceVariant}
    (m : List Char) : ofModel m (filteredVariants entries variants) =
      if m ∈ trimmedModels (modelsWhere isManual entries) then []
      else ofModel m variants :=
  ofModel_filter_notMem variants _ m

section
variable (hc : Checked es vs models c)
include hc

theorem mem_manual_upsertEntries :
    m ∈ modelsWhere isManual (upsertEntries now cat.entries c.entries) ↔
      m ∈ modelsWhere isManual cat.entries := by
  simp only [mem_modelsWhere, ← and_assoc]
  simp [manual_upsertEntries hc.keys cat.models]

theorem mem_manual_normalized :
    m ∈ manualCandidates (upsertEntries now cat.entries c.entries) (normalizeModelList c.models) ↔
      m ∈ normalizeModelList c.models ∧ m ∈ modelsWhere isManual cat.entries := by
  rw [mem_manualCandidates fun x hx => hc.trim (hc.normalized_perm.mem_iff.mp hx),
    mem_manual_upsertEntries hc]

/-- The models that the reconciliation takes to have variants are those of the filtered list. -/
theorem mem_withVariants :
    m ∈ normalizeModelList ((filteredVariants cat.entries c.variants).map PriceVariant.model) ↔
      m ∈ variantModels (filteredVariants cat.entries c.variants) := by
  have htrimmed : ∀ v ∈ filteredVariants cat.entries c.variants,
      v.model ≠ [] ∧ trimSpace v.model = v.model := fun v hv =>
    hc.trim (hc.priced v (mem_filter.mp hv).1)
  rw [mem_normalizeModelList]
  simp only [variantModels, sortStrings, mem_insertionSort, mem_dedup, mem_map]
  constructor
  · rintro ⟨-, x, ⟨v, hv, rfl⟩, rfl⟩
    exact ⟨v, hv, (htrimmed v hv).2.symm⟩
  · rintro ⟨v, hv, rfl⟩
    exact ⟨(htrimmed v hv).1, v.model, ⟨v, hv, rfl⟩, (htrimmed v hv).2⟩

variable (htrim : ∀ e ∈ cat.entries, trimSpace e.model = e.model)
include htrim

omit hc in
theorem mem_trimmed_manual : m ∈ trimmedModels (modelsWhere isManual cat.entries) ↔
      m ∈ modelsWhere isManual cat.entries := by
  rw [mem_trimmedModels]
  constructor
  · rintro ⟨-, x, hx, rfl⟩
    obtain ⟨e, he, hmanual, rfl⟩ := mem_modelsWhere.mp hx
    rwa [htrim e he]
  · intro hm
    obtain ⟨e, he, hmanual, rfl⟩ := mem_modelsWhere.mp hm
    exact ⟨cat.named e he, e.model, hm, htrim e he⟩

theorem trimSpace_upsertEntries :
    ∀ e ∈ upsertEntries now cat.entries c.entries, trimSpace e.model ≠ [] := by
  intro e he
  have hne := named_upsertEntries (fun x hx => (hc.trim (hc.row_model hx)).1) cat.named hc.keys
    cat.models e he
  rw [mem_upsertEntries hc.keys cat.models] at he
  rcases he with ⟨he, -⟩ | ⟨x, hx, -, rfl⟩ | ⟨x, hx, y, hy, -, -, rfl⟩
  · rwa [htrim e he]
  · exact (hc.trim (hc.row_model hx)).2.symm ▸ hne
  · exact (htrim y hy).symm ▸ hne

variable (h : publish faults cat now c = .ok (tables, n, nVar))
include h

/-- The entries that the transaction leaves. -/
theorem mem_published (e : PriceEntry) :
    e ∈ tables.1 ↔ e ∈ upsertEntries now cat.entries c.entries ∧
      (e.isOfficial = true → e.model ∈ c.models) := by
  obtain ⟨variants, -, rfl⟩ := hc.tables_eq h
  rw [mem_reconciled_entries (trimSpace_upsertEntries hc htrim), hc.normalized_perm.mem_iff]

theorem published_official (m : List Char) :
    m ∈ modelsWhere isOfficial tables.1 ↔
      m ∈ c.models ∧ m ∉ modelsWhere isManual cat.entries := by
  constructor
  · intro hm
    obtain ⟨e, he, hofficial, rfl⟩ := mem_modelsWhere.mp hm
    obtain ⟨he, hin⟩ := (mem_published hc htrim h e).mp he
    refine ⟨hin hofficial, ?_⟩
    rw [← mem_manual_upsertEntries hc]
    exact not_manual_of_official (keys_upsertEntries cat.models)
      (mem_modelsWhere.mpr ⟨e, he, hofficial, rfl⟩)
  · rintro ⟨hm, hmanual⟩
    have hup : m ∈ modelsWhere isOfficial (upsertEntries now cat.entries c.entries) :=
      (mem_official_upsertEntries hc.keys cat.models m).mpr
        (.inr ⟨hc.rows.mem_iff.mpr hm, hmanual⟩)
    obtain ⟨e, he, hofficial, rfl⟩ := mem_modelsWhere.mp hup
    have hmem := (mem_published hc htrim h e).mpr ⟨he, fun _ => hm⟩
    exact mem_modelsWhere.mpr ⟨e, hmem, hofficial, rfl⟩

theorem published_prices {e : PriceEntry} (he : e ∈ tables.1)
    (hofficial : e.isOfficial = true) :
    ∃ x ∈ es, trimSpace x.model = e.model ∧ e.SameColumns x := by
  have hfrom {x : PriceEntry} (hx : x ∈ c.entries) : ∃ x₀ ∈ es, x = x₀.trimmed := by
    obtain ⟨x₀, hx₀, heq⟩ := mem_map.mp (hc.entries_perm.mem_iff.mp hx)
    exact ⟨x₀, hx₀, heq.symm⟩
  obtain ⟨he, hin⟩ := (mem_published hc htrim h e).mp he
  rw [mem_upsertEntries hc.keys cat.models] at he
  rcases he with ⟨-, hmanual | hout⟩ | ⟨x, hx, -, rfl⟩ | ⟨x, hx, y, -, hkey, -, rfl⟩
  · rw [isOfficial_iff, hmanual] at hofficial
    cases hofficial
  · exact absurd (hc.rows.mem_iff.mpr (hin hofficial)) hout
  · obtain ⟨x₀, hx₀, rfl⟩ := hfrom hx
    exact ⟨x₀, hx₀, rfl, rfl⟩
  · obtain ⟨x₀, hx₀, rfl⟩ := hfrom hx
    exact ⟨x₀, hx₀, hkey.symm, rfl⟩

theorem published_variants (hm : m ∈ c.models)
    (hmanual : m ∉ modelsWhere isManual cat.entries) :
    (ofModel m tables.2).Perm (ofModel m c.variants) := by
  obtain ⟨variants, hreplace, rfl⟩ := hc.tables_eq h
  have hfiltered : ofModel m (filteredVariants cat.entries c.variants) = ofModel m c.variants := by
    rw [ofModel_filteredVariants, if_neg (fun h => hmanual ((mem_trimmed_manual htrim).mp h))]
  have hnorm := hc.normalized_perm.mem_iff.mpr hm
  by_cases hv : m ∈ variantModels (filteredVariants cat.entries c.variants)
  · rw [ofModel_reconciled_kept (fun _ => hnorm) fun _ => .inl ((mem_withVariants hc).mpr hv),
      (replaceAll_ok (nodup_variantModels _) hreplace).2 m, if_pos hv, ← hfiltered]
    exact replaced_perm m _
  · rw [ofModel_reconciled_cleared hnorm (fun h => hv ((mem_withVariants hc).mp h)) ?_, ← hfiltered,
      not_not.mp (mt mem_variantModels.mpr hv)]
    exact fun h => hmanual ((mem_manual_normalized hc).mp h).2

theorem published_manualVariants (hmanual : m ∈ modelsWhere isManual cat.entries) :
    ofModel m tables.2 = ofModel m cat.variants := by
  obtain ⟨variants, hreplace, rfl⟩ := hc.tables_eq h
  have hnone : m ∉ variantModels (filteredVariants cat.entries c.variants) := by
    rw [mem_variantModels, ofModel_filteredVariants,
      if_pos ((mem_trimmed_manual htrim).mpr hmanual)]
    exact fun h => h rfl
  rw [ofModel_reconciled_kept, (replaceAll_ok (nodup_variantModels _) hreplace).2 m, if_neg hnone]
  · intro hofficial
    have hnot := not_manual_of_official (keys_upsertEntries cat.models) hofficial
    exact absurd ((mem_manual_upsertEntries hc).mpr hmanual) hnot
  · intro hin
    exact .inr ((mem_manual_normalized hc).mpr ⟨hin, hmanual⟩)

end

theorem published (hcheck : checkSnapshot entries variants models = .ok c)
    (htrim : ∀ e ∈ cat.entries, trimSpace e.model = e.model) {after : Catalogue}
    (h : publish faults cat now c = .ok ((after.entries, after.variants), n, nVar)) :
    Published cat after entries variants models := by
  obtain ⟨es, vs, rfl, rfl, hc⟩ := checkSnapshot_ok hcheck
  have hofficial := published_official hc htrim h
  have hvs : (vs.map some).reduceOption = vs := by
    show (vs.map some).filterMap id = vs
    simp
  refine ⟨?_, ?_, ?_, ?_, ?_⟩
  · intro m
    rw [hofficial, hc.models_eq]
  · intro e he hoff
    obtain ⟨x, hx, hmodel, hcols⟩ := published_prices hc htrim h he hoff
    exact ⟨x, mem_map_of_mem hx, hmodel, hcols⟩
  · intro m hm
    obtain ⟨hin, hmanual⟩ := (hofficial m).mp hm
    rw [hvs, ← hc.variants_eq]
    exact published_variants hc htrim h hin hmanual
  · intro e
    rw [mem_published hc htrim h, and_right_comm, manual_upsertEntries hc.keys cat.models]
    refine ⟨fun he => he.1, fun he => ⟨he, fun hoff => ?_⟩⟩
    rw [isOfficial_iff, he.2] at hoff
    cases hoff
  · exact fun m hm => published_manualVariants hc htrim h hm

/-- A call that succeeds leaves the candidate's official catalogue beside the manual one; a call
that fails leaves what was stored. -/
theorem snapshot_published (faults : Statement → Bool) (cat : Catalogue) (now : Int)
    (entries : List (Option PriceEntry)) (variants : List (Option PriceVariant))
    (models : List (List Char)) (htrim : ∀ e ∈ cat.entries, trimSpace e.model = e.model) :
    (∀ n nVar, (applyLiteLLMSnapshot faults cat now entries variants models).2 = .ok (n, nVar) →
      Published cat (applyLiteLLMSnapshot faults cat now entries variants models).1
        entries variants models) ∧
      ∀ f, (applyLiteLLMSnapshot faults cat now entries variants models).2 = .error f →
        (applyLiteLLMSnapshot faults cat now entries variants models).1 = cat := by
  refine ⟨fun n nVar h => ?_, fun f h => applyLiteLLMSnapshot_error h⟩
  obtain ⟨c, hcheck, hpublish⟩ := applyLiteLLMSnapshot_ok h
  exact published hcheck htrim hpublish

/-- A manual row, an official row that the feed no longer has, and one with a variant. -/
def mixedCatalogue : Catalogue where
  entries := [{ model := ['m'], source := .manual, inputPerM := some 7 },
    { model := ['a'], inputPerM := some 1 }, { model := ['b'], inputPerM := some 2 }]
  variants := [{ model := ['m'], seq := 0, setInputPerM := some 9 },
    { model := ['b'], seq := 0, multBP := some 20000 }]
  models := by decide
  seqs := by decide
  named := by decide

theorem snapshot_published_mixed :
    Published mixedCatalogue
      (applyLiteLLMSnapshot (fun _ => false) mixedCatalogue 5
        [some { model := ['b'], inputPerM := some 3 }, some { model := ['c', ' '] },
          some { model := ['m'], inputPerM := some 4 }]
        [some { model := ['c'], seq := 0, setInputPerM := some 8 },
          some { model := ['m'], seq := 1, setInputPerM := some 8 }]
        [['b'], ['c'], ['m']]).1
      [some { model := ['b'], inputPerM := some 3 }, some { model := ['c', ' '] },
        some { model := ['m'], inputPerM := some 4 }]
      [some { model := ['c'], seq := 0, setInputPerM := some 8 },
        some { model := ['m'], seq := 1, setInputPerM := some 8 }]
      [['b'], ['c'], ['m']] :=
  (snapshot_published _ mixedCatalogue 5 _ _ _ (by decide)).1 2 1 (by decide +kernel)

end C4Gateway.Pricing
