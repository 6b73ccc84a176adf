import C4Gateway.Pricing.Publish

/-! The guard against a suspicious feed reads the official rows after the candidate's own rows have
been written, so it compares the candidate with the union of both. -/

namespace C4Gateway.Pricing

open List
open PriceEntry (isOfficial isManual)

open Sql Text

/-- The models of a candidate without a manual row. -/
def officialCandidates (cat : Catalogue) (c : Candidate) : List (List Char) :=
  c.models.filter (· ∉ modelsWhere isManual cat.entries)

def sharedModels (cat : Catalogue) (c : Candidate) : List (List Char) :=
  (officialCandidates cat c).filter (· ∈ modelsWhere isOfficial cat.entries)

/-- The result is an error that wraps `ErrSuspiciousPriceSnapshot`. -/
def Refuses {α : Type} (x : Except SnapshotError α) : Prop :=
  ∃ f, x = .error f ∧ f.isSuspicious = true

section
variable {faults : Statement → Bool} {cat : Catalogue} {now : Int} {c : Candidate}
  {es : List PriceEntry} {vs : List PriceVariant} {models : List (List Char)}

theorem snapshotModelOverlap_of_subset {current candidate : List (List Char)}
    (hnodup : candidate.Nodup) (h : ∀ m ∈ candidate, m ∈ current) :
    snapshotModelOverlap current candidate = candidate.length := by
  rw [snapshotModelOverlap, hnodup.dedup, filter_eq_self.mpr fun m hm => by simp [h m hm]]

/-- Models that are all stored overlap the stored ones entirely. -/
theorem suspiciousPriceSnapshotContent_of_subset {current candidate : List (List Char)}
    (h : ∀ m ∈ candidate, m ∈ current) :
    suspiciousPriceSnapshotContent current candidate = false := by
  have hsub : ∀ m ∈ normalizeModelList candidate, m ∈ normalizeModelList current := by
    intro m hm
    rw [mem_normalizeModelList] at hm ⊢
    obtain ⟨hne, x, hx, rfl⟩ := hm
    exact ⟨hne, x, h x hx, rfl⟩
  simp only [suspiciousPriceSnapshotContent,
    snapshotModelOverlap_of_subset (nodup_normalizeModelList candidate) hsub]
  split
  · rfl
  · rw [decide_eq_false_iff_not, snapshotOverlapMinPercent]
    omega

theorem nodup_modelsWhere {entries : List PriceEntry} (p : PriceEntry → Bool)
    (h : (entries.map PriceEntry.model).Nodup) : (modelsWhere p entries).Nodup :=
  h.sublist (filter_sublist.map _)

theorem nodup_manualCandidates (entries : List PriceEntry) (models : List (List Char)) :
    (manualCandidates entries models).Nodup :=
  nodup_dedup _

theorem suspiciousPriceSnapshotShrink_iff {current : Nat} (candidate : Nat) (h : 100 ≤ current) :
    suspiciousPriceSnapshotShrink current candidate = true ↔ 2 * candidate < current := by
  rw [suspiciousPriceSnapshotShrink, snapshotShrinkGuardMinExisting, if_neg (by omega),
    decide_eq_true_eq]
  omega

variable {rows : List PriceEntry} (hrows : upsertEntries now cat.entries c.entries = rows)
  (hc : Checked es vs models c)
include hrows hc

theorem length_upserted_official :
    (rows.filter isOfficial).length + (sharedModels cat c).length =
      (modelsWhere isOfficial cat.entries).length + (officialCandidates cat c).length := by
  have hstored := nodup_modelsWhere isOfficial cat.models
  have hcandidates : (officialCandidates cat c).Nodup := hc.nodup.filter _
  have hperm : (modelsWhere isOfficial rows).Perm
      (modelsWhere isOfficial cat.entries ++ (officialCandidates cat c).filter
        (· ∉ modelsWhere isOfficial cat.entries)) := by
    rw [← hrows, perm_ext_iff_of_nodup (nodup_modelsWhere _ (keys_upsertEntries cat.models))]
    · intro m
      rw [mem_official_upsertEntries hc.keys cat.models, mem_append, mem_filter, officialCandidates,
        mem_filter, hc.rows.mem_iff]
      simp only [decide_eq_true_eq]
      tauto
    · refine hstored.append (hcandidates.filter _) fun m hm hm' => ?_
      simp only [mem_filter, decide_eq_true_eq] at hm'
      exact hm'.2 hm
  have hlen := hperm.length_eq
  rw [length_append, modelsWhere, length_map] at hlen
  have hsplit := length_eq_length_filter_add (l := officialCandidates cat c)
    (· ∈ modelsWhere isOfficial cat.entries)
  simp only [← decide_not] at hsplit
  rw [sharedModels]
  omega

/-- The candidate's official models, as the reconciliation counts them. -/
theorem official_perm :
    ((normalizeModelList c.models).filter
      (· ∉ manualCandidates rows (normalizeModelList c.models))).Perm
      (officialCandidates cat c) := by
  subst hrows
  refine Perm.trans (.of_eq (filter_congr fun m hm => ?_)) (hc.normalized_perm.filter _)
  rw [decide_eq_decide, mem_manual_normalized hc]
  exact not_congr (and_iff_right hm)

theorem candidateRows_eq :
    (normalizeModelList c.models).length -
      (manualCandidates rows (normalizeModelList c.models)).length =
      (officialCandidates cat c).length := by
  rw [← (official_perm hrows hc).length_eq]
  have hsplit := length_eq_length_filter_add (l := normalizeModelList c.models)
    (· ∈ manualCandidates rows (normalizeModelList c.models))
  simp only [← decide_not] at hsplit
  have hmanual : ((normalizeModelList c.models).filter
      (· ∈ manualCandidates rows (normalizeModelList c.models))).Perm
      (manualCandidates rows (normalizeModelList c.models)) := by
    rw [perm_ext_iff_of_nodup ((nodup_normalizeModelList _).filter _) (nodup_manualCandidates _ _)]
    intro m
    rw [mem_filter, decide_eq_true_eq, ← hrows, mem_manual_normalized hc]
    exact ⟨fun h => h.2, fun h => ⟨h.1, h⟩⟩
  have hlen := hmanual.length_eq
  omega

theorem official_stored {m : List Char} (hm : m ∈ officialCandidates cat c) :
    m ∈ trimmedModels (modelsWhere isOfficial rows) := by
  simp only [officialCandidates, mem_filter, decide_eq_true_eq] at hm
  rw [mem_trimmedModels]
  refine ⟨(hc.trim hm.1).1, m, ?_, (hc.trim hm.1).2⟩
  rw [← hrows, mem_official_upsertEntries hc.keys cat.models]
  exact .inr ⟨hc.rows.mem_iff.mpr hm.1, hm.2⟩

/-- The reconciliation refuses the candidate exactly if the official models it lacks are more than
all it has. -/
theorem reconcile_refuses_iff (variants : List PriceVariant) (withVariants : List (List Char))
    (hn : 100 ≤ (modelsWhere isOfficial cat.entries).length) :
    Refuses (reconcileLiteLLMSnapshot rows variants c.models withVariants) ↔
      (officialCandidates cat c).length + (sharedModels cat c).length <
        (modelsWhere isOfficial cat.entries).length := by
  have hlength := length_upserted_official hrows hc
  have hcontent : suspiciousPriceSnapshotContent (trimmedModels (modelsWhere isOfficial rows))
      ((normalizeModelList c.models).filter
        (· ∉ manualCandidates rows (normalizeModelList c.models))) = false :=
    suspiciousPriceSnapshotContent_of_subset fun m hm =>
      official_stored hrows hc ((official_perm hrows hc).mem_iff.mp hm)
  have hshared : (sharedModels cat c).length ≤ (officialCandidates cat c).length :=
    length_filter_le _ _
  have hiff := suspiciousPriceSnapshotShrink_iff (officialCandidates cat c).length
    (show 100 ≤ (rows.filter isOfficial).length by omega)
  simp only [reconcileLiteLLMSnapshot, if_neg hc.normalized_ne, hcontent, Bool.or_false,
    candidateRows_eq hrows hc]
  by_cases hshrink : 2 * (officialCandidates cat c).length < (rows.filter isOfficial).length
  · rw [if_pos (hiff.mpr hshrink)]
    exact iff_of_true ⟨_, rfl, rfl⟩ (by omega)
  · rw [if_neg (mt hiff.mp hshrink)]
    refine iff_of_false ?_ (by omega)
    rintro ⟨f, hf, -⟩
    cases hf

end

/-- The database answers every statement up to the reads of the reconciliation. -/
def Reached (faults : Statement → Bool) (cat : Catalogue) (c : Candidate) : Prop :=
  faults .begin = false ∧ faults .manualModels = false ∧
    (∀ i < (batches litellmBatchSize c.entries).length, faults (.upsertBatch i) = false) ∧
    (∀ m ∈ variantModels (filteredVariants cat.entries c.variants),
      faults (.replaceBatch m) = false) ∧
    faults .reconcileRead = false

/-- The database accepts the variants of every model. -/
def VariantsValid (cat : Catalogue) (c : Candidate) : Prop :=
  ∀ m ∈ variantModels (filteredVariants cat.entries c.variants),
    batchValid (ofModel m (filteredVariants cat.entries c.variants))

/-- Fewer than half of the stored official rows, or fewer than five percent in common. -/
def SuspiciousFeed (cat : Catalogue) (c : Candidate) : Prop :=
  2 * (officialCandidates cat c).length < (modelsWhere isOfficial cat.entries).length ∨
    (sharedModels cat c).length * 100 <
      min (modelsWhere isOfficial cat.entries).length
        (officialCandidates cat c).length * 5

section
variable {faults : Statement → Bool} {cat : Catalogue} {now : Int} {c : Candidate}
  {entries : List (Option PriceEntry)} {variants : List (Option PriceVariant)}
  {models : List (List Char)} {α : Type} {x : Except SnapshotError α} {vs : List PriceVariant}
  {es : List PriceEntry}

theorem refuses_bind {β : Type} {g : α → Except SnapshotError β} :
    Refuses (x >>= g) ↔ Refuses x ∨ ∃ a, x = .ok a ∧ Refuses (g a) := by
  cases x with
  | error f | ok a => simp [Refuses, bind, Except.bind]

@[simp] theorem not_refuses_ok (a : α) : ¬Refuses (.ok a) := by
  simp [Refuses]

@[simp] theorem refuses_guarded {st : Statement} :
    Refuses (guarded faults st x) ↔ faults st = false ∧ Refuses x := by
  cases hf : faults st <;> simp [Refuses, guarded, hf, SnapshotError.isSuspicious]

theorem not_refuses_checkBatch (seqs : List Int) (batch : List PriceVariant) :
    ¬Refuses (checkBatch seqs batch) := by
  induction batch generalizing seqs with
  | nil => exact not_refuses_ok ()
  | cons v rest ih =>
    unfold checkBatch
    split_ifs
    iterate 2
      simp [Refuses, SnapshotError.isSuspicious]
    exact ih _

theorem not_refuses_replaceAll (vs stored : List PriceVariant) (models : List (List Char)) :
    ¬Refuses (replaceAll faults vs stored models) := by
  induction models generalizing stored with
  | nil => exact not_refuses_ok _
  | cons m rest ih =>
    rw [replaceAll, refuses_bind, refuses_guarded, replaceBatch, refuses_bind]
    rintro (⟨-, h | ⟨_, -, h⟩⟩ | ⟨_, -, h⟩)
    · exact not_refuses_checkBatch _ _ h
    · exact not_refuses_ok _ h
    · exact ih _ h

theorem publish_refuses_iff (hc : Checked es vs models c)
    (hn : 100 ≤ (modelsWhere isOfficial cat.entries).length) :
    Refuses (publish faults cat now c) ↔ Reached faults cat c ∧ VariantsValid cat c ∧
      (officialCandidates cat c).length + (sharedModels cat c).length <
        (modelsWhere isOfficial cat.entries).length := by
  simp only [publish, refuses_bind, refuses_guarded, not_refuses_ok, guarded_eq_ok_iff, and_false,
    false_or, exists_const, and_true]
  cases hfind : (List.range (batches litellmBatchSize c.entries).length).find?
      fun i => faults (.upsertBatch i) with
  | some i =>
    refine iff_of_false ?_ ?_
    · rintro ⟨-, -, f, hf, hsuspicious⟩
      cases hf
      cases hsuspicious
    · rintro ⟨⟨-, -, hup, -⟩, -⟩
      have hfault := hup i (mem_range.mp (mem_of_find?_eq_some hfind))
      simp [find?_some hfind] at hfault
  | none =>
    have hup : ∀ i < (batches litellmBatchSize c.entries).length,
        faults (.upsertBatch i) = false := by
      simpa using hfind
    simp only [refuses_bind, refuses_guarded, not_refuses_ok, and_false, exists_const, or_false,
      not_refuses_replaceAll, false_or]
    constructor
    · rintro ⟨hbegin, hmanual, variants, hreplace, hread, hrefuse⟩
      have hok := (replaceAll_ok (nodup_variantModels _) hreplace).1
      exact ⟨⟨hbegin, hmanual, hup, fun m hm => (hok m hm).1, hread⟩, fun m hm => (hok m hm).2,
        (reconcile_refuses_iff rfl hc _ _ hn).mp hrefuse⟩
    · rintro ⟨⟨hbegin, hmanual, -, hbatch, hread⟩, hvalid, hlt⟩
      obtain ⟨variants, hreplace⟩ := replaceAll_succeeds fun m hm => ⟨hbatch m hm, hvalid m hm⟩
      exact ⟨hbegin, hmanual, variants, hreplace, hread,
        (reconcile_refuses_iff rfl hc _ _ hn).mpr hlt⟩

theorem publish_succeeds (hc : Checked es vs models c)
    (hn : 100 ≤ (modelsWhere isOfficial cat.entries).length)
    (hfaults : ∀ st, faults st = false) (hvalid : VariantsValid cat c)
    (hge : (modelsWhere isOfficial cat.entries).length ≤
      (officialCandidates cat c).length + (sharedModels cat c).length) :
    ∃ tables n nVar, publish faults cat now c = .ok (tables, n, nVar) := by
  have hfind : (List.range (batches litellmBatchSize c.entries).length).find?
      (fun i => faults (.upsertBatch i)) = none := by
    simp [hfaults]
  obtain ⟨variants, hreplace⟩ : ∃ variants, replaceAll faults
      (filteredVariants cat.entries c.variants) cat.variants
      (variantModels (filteredVariants cat.entries c.variants)) = .ok variants :=
    replaceAll_succeeds fun m hm => ⟨hfaults _, hvalid m hm⟩
  cases hreconcile : reconcileLiteLLMSnapshot (upsertEntries now cat.entries c.entries) variants
      c.models ((filteredVariants cat.entries c.variants).map PriceVariant.model) with
  | error f =>
    have hsuspicious := hreconcile
    simp only [reconcileLiteLLMSnapshot] at hsuspicious
    split_ifs at hsuspicious
    cases hsuspicious
    have hlt := (reconcile_refuses_iff rfl hc _ _ hn).mp ⟨_, hreconcile, rfl⟩
    omega
  | ok tables =>
    have hguarded {α : Type} (st : Statement) (x : Except SnapshotError α) :
        guarded faults st x = x := by
      simp [guarded, hfaults]
    simp only [publish, hguarded, hfind, hreplace, hreconcile, bind, Except.bind]
    exact ⟨_, _, _, rfl⟩

section
variable (hcheck : checkSnapshot entries variants models = .ok c)
include hcheck

theorem applyLiteLLMSnapshot_checked :
    (applyLiteLLMSnapshot faults cat now entries variants models).2 =
      (publish faults cat now c).map Prod.snd := by
  unfold applyLiteLLMSnapshot
  split
  · next hcheck' => cases hcheck.symm.trans hcheck'
  · next c' hcheck' =>
    cases hcheck.symm.trans hcheck'
    split
    all_goals
      next hpublish => exact (congrArg (Except.map Prod.snd) hpublish).symm

theorem applyLiteLLMSnapshot_refuses :
    Refuses (applyLiteLLMSnapshot faults cat now entries variants models).2 ↔
      Refuses (publish faults cat now c) := by
  rw [applyLiteLLMSnapshot_checked hcheck]
  cases publish faults cat now c <;> simp [Refuses, Except.map]

theorem applyLiteLLMSnapshot_official (htrim : ∀ e ∈ cat.entries, trimSpace e.model = e.model)
    {n nVar : Nat}
    (h : (applyLiteLLMSnapshot faults cat now entries variants models).2 = .ok (n, nVar))
    (m : List Char) :
    m ∈ modelsWhere isOfficial
        (applyLiteLLMSnapshot faults cat now entries variants models).1.entries ↔
      m ∈ c.models ∧ m ∉ modelsWhere isManual cat.entries := by
  obtain ⟨c', hcheck', hpublish⟩ := applyLiteLLMSnapshot_ok h
  cases hcheck.symm.trans hcheck'
  obtain ⟨es, vs, -, -, hc⟩ := checkSnapshot_ok hcheck
  exact published_official hc htrim hpublish m

end

/-- For a candidate that passes the checks, the refusal of a suspicious feed is exactly this: the
transaction gets as far as the guard, and the candidate has so few models that its own count and
the shared ones together stay below the stored count. -/
theorem suspicious_refused_iff (hcheck : checkSnapshot entries variants models = .ok c)
    (hn : 100 ≤ (modelsWhere isOfficial cat.entries).length) :
    (SuspiciousFeed cat c →
        Refuses (applyLiteLLMSnapshot faults cat now entries variants models).2 ∧
          (applyLiteLLMSnapshot faults cat now entries variants models).1 = cat) ↔
      (SuspiciousFeed cat c → Reached faults cat c ∧ VariantsValid cat c ∧
        (officialCandidates cat c).length + (sharedModels cat c).length <
          (modelsWhere isOfficial cat.entries).length) := by
  obtain ⟨es, vs, -, -, hc⟩ := checkSnapshot_ok hcheck
  refine imp_congr_right fun _ => ?_
  rw [← publish_refuses_iff hc hn, ← applyLiteLLMSnapshot_refuses hcheck]
  refine ⟨fun h => h.1, fun h => ⟨h, ?_⟩⟩
  obtain ⟨f, hf, -⟩ := h
  exact applyLiteLLMSnapshot_error hf

theorem checkEntries_succeeds {candidates seen : List (List Char)}
    (htrim : ∀ e ∈ es, e.model ≠ [] ∧ trimSpace e.model = e.model)
    (hnodup : (es.map PriceEntry.model).Nodup) (hseen : ∀ e ∈ es, e.model ∉ seen)
    (hin : ∀ e ∈ es, e.model ∈ candidates) :
    checkEntries candidates seen (es.map some) = .ok es := by
  induction es generalizing seen with
  | nil => rfl
  | cons e rest ih =>
    simp only [forall_mem_cons] at htrim hseen hin
    rw [map_cons, nodup_cons] at hnodup
    have hrest : checkEntries candidates (e.model :: seen) (rest.map some) = .ok rest :=
      ih htrim.2 hnodup.2 (fun x hx hmem => by
      rcases mem_cons.mp hmem with heq | hmem
      · exact hnodup.1 (heq ▸ mem_map_of_mem hx)
      · exact hseen.2 x hx hmem) hin.2
    simp [checkEntries, htrim.1.2, if_neg htrim.1.1, if_neg hseen.1, if_neg (not_not.mpr hin.1),
      hrest, bind, Except.bind]

/-- Rows with distinct trimmed names, and no variants, pass the checks. -/
theorem checkSnapshot_succeeds (hne : es ≠ [])
    (htrim : ∀ e ∈ es, e.model ≠ [] ∧ trimSpace e.model = e.model)
    (hnodup : (es.map PriceEntry.model).Nodup) :
    ∃ c, checkSnapshot (es.map some) [] (es.map PriceEntry.model) = .ok c ∧
      c.models.Perm (es.map PriceEntry.model) ∧ c.variants = [] := by
  have hperm : (normalizeModelList (es.map PriceEntry.model)).Perm (es.map PriceEntry.model) :=
    normalizeModelList_perm hnodup (forall_mem_map.mpr htrim)
  have hmodels : normalizeModelList (es.map PriceEntry.model) ≠ [] := fun h =>
    hne (map_eq_nil_iff.mp (h ▸ hperm.symm).eq_nil)
  have hentries : checkEntries (normalizeModelList (es.map PriceEntry.model)) [] (es.map some) =
      .ok es := checkEntries_succeeds htrim hnodup (by simp)
    fun e he => hperm.mem_iff.mpr (mem_map_of_mem he)
  have hlen : es.length = (normalizeModelList (es.map PriceEntry.model)).length := by
    rw [hperm.length_eq, length_map]
  refine ⟨⟨normalizeModelList (es.map PriceEntry.model),
    es.insertionSort fun a b => a.model ≤ b.model, []⟩, ?_, hperm, rfl⟩
  simp only [checkSnapshot, if_neg hmodels, hentries, bind, Except.bind, checkVariants]
  rw [if_neg (not_not.mpr hlen)]

end

def numbered (i : Nat) : List Char := 'm' :: decimal i

theorem numbered_injective : Function.Injective numbered := by
  intro i j h
  exact Int.ofNat_inj.mp (decimal_injective (List.cons.inj h).2)

/-- The rows of the models numbered from `start` on. -/
def numberedRows (start : Nat) : List PriceEntry :=
  (List.range 100).map fun i => { model := numbered (start + i) }

theorem models_numberedRows (start : Nat) :
    (numberedRows start).map PriceEntry.model =
      (List.range 100).map fun i => numbered (start + i) := by
  simp [numberedRows]

theorem nodup_numberedRows (start : Nat) : ((numberedRows start).map PriceEntry.model).Nodup := by
  rw [models_numberedRows]
  exact nodup_range.map fun i j h => Nat.add_left_cancel (numbered_injective h)

def numberedCatalogue : Catalogue where
  entries := numberedRows 0
  variants := []
  models := nodup_numberedRows 0
  seqs := nodup_nil
  named := by
    intro e he
    obtain ⟨i, -, rfl⟩ := mem_map.mp he
    exact cons_ne_nil _ _

theorem suspicious_refused_small :
    Refuses (applyLiteLLMSnapshot (fun _ => false) numberedCatalogue 1 [some { model := ['a'] }] []
      [['a']]).2 :=
  ((suspicious_refused_iff (c := ⟨[['a']], [{ model := ['a'] }], []⟩) (by decide +kernel)
    (by decide +kernel)).mpr (fun _ => by
      refine ⟨⟨rfl, rfl, fun _ _ => rfl, fun _ _ => rfl, rfl⟩, fun m hm => ?_, by decide +kernel⟩
      cases hm) (Or.inl (by decide +kernel))).1

/-- A feed as large as the catalogue, with entirely different models, replaces it. -/
theorem suspicious_feed_published : ∃ c n nVar,
    checkSnapshot ((numberedRows 100).map some) [] ((numberedRows 100).map PriceEntry.model) =
        .ok c ∧
      SuspiciousFeed numberedCatalogue c ∧
      (applyLiteLLMSnapshot (fun _ => false) numberedCatalogue 1 ((numberedRows 100).map some) []
        ((numberedRows 100).map PriceEntry.model)).2 = .ok (n, nVar) ∧
      ∀ m, m ∈ modelsWhere isOfficial
          (applyLiteLLMSnapshot (fun _ => false) numberedCatalogue 1
            ((numberedRows 100).map some) []
            ((numberedRows 100).map PriceEntry.model)).1.entries ↔
        m ∈ (numberedRows 100).map PriceEntry.model := by
  have htrim : ∀ e ∈ numberedRows 100, e.model ≠ [] ∧ trimSpace e.model = e.model := by
    decide +kernel
  obtain ⟨c, hcheck, hmodels, hvariants⟩ :=
    checkSnapshot_succeeds (by decide) htrim (nodup_numberedRows 100)
  obtain ⟨es, vs, -, -, hc⟩ := checkSnapshot_ok hcheck
  have hmanual : modelsWhere isManual numberedCatalogue.entries = [] := rfl
  have hstored : modelsWhere isOfficial numberedCatalogue.entries =
      (numberedRows 0).map PriceEntry.model := rfl
  have hofficial : officialCandidates numberedCatalogue c = c.models := by
    simp [officialCandidates, hmanual]
  have hshared : sharedModels numberedCatalogue c = [] := by
    rw [sharedModels, hofficial, hstored, filter_eq_nil_iff]
    intro m hm hin
    rw [hmodels.mem_iff] at hm
    rw [decide_eq_true_eq] at hin
    rw [models_numberedRows, mem_map] at hm hin
    obtain ⟨i, -, rfl⟩ := hm
    obtain ⟨j, hj, heq⟩ := hin
    have hsame := numbered_injective heq
    have hlt := mem_range.mp hj
    omega
  have hlen : c.models.length = 100 := by
    rw [hmodels.length_eq, models_numberedRows, length_map, length_range]
  have hstoredLen : (modelsWhere isOfficial numberedCatalogue.entries).length = 100 := by
    rw [hstored, models_numberedRows, length_map, length_range]
  have hvalid : VariantsValid numberedCatalogue c := by
    intro m hm
    rw [hvariants] at hm
    cases hm
  obtain ⟨tables, n, nVar, hpublish⟩ := publish_succeeds hc hstoredLen.ge
    (fun _ => rfl : ∀ st : Statement, (fun _ => false) st = false) hvalid (by
      rw [hofficial, hlen]
      exact Nat.le_add_right _ _)
  have hok : (applyLiteLLMSnapshot _ _ 1 _ _ _).2 = .ok (n, nVar) :=
    (applyLiteLLMSnapshot_checked hcheck).trans (congrArg (Except.map Prod.snd) hpublish)
  refine ⟨c, n, nVar, hcheck, Or.inr ?_, hok, fun m => ?_⟩
  · rw [hofficial, hshared, hlen]
    decide
  · rw [applyLiteLLMSnapshot_official hcheck (by decide +kernel) hok, hmanual, hmodels.mem_iff]
    simp

end C4Gateway.Pricing
