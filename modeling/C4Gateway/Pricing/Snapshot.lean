import C4Gateway.Lib.Text
import C4Gateway.Lib.Upsert
import C4Gateway.Pricing.Entry
import Mathlib.Data.Char
import Mathlib.Data.List.Lex

/-! A complete price snapshot is published in one transaction: the shape of the candidate is
checked, its rows are upserted in batches, its variants replace the stored ones model by model, and
the stored catalogue is reconciled with it.  The nested transactions of these functions run on the
connection of the outer one, and their commits do nothing. -/

namespace C4Gateway.Pricing

open List Sql Text

def PriceVariant.key (v : PriceVariant) : List Char × Int := (v.model, v.seq)

/-- The two price tables with their unique indexes.  Every writer refuses an empty model name. -/
structure Catalogue where
  entries : List PriceEntry
  variants : List PriceVariant
  models : (entries.map PriceEntry.model).Nodup
  seqs : (variants.map PriceVariant.key).Nodup
  named : ∀ e ∈ entries, e.model ≠ []

/-- The statements of the transaction. -/
inductive Statement where
  | begin
  | manualModels
  | upsertBatch (i : Nat)
  | replaceBatch (model : List Char)
  | reconcileRead
  | reconcileDelete
  | commit
  deriving DecidableEq, Repr

/-- Why a snapshot is refused. -/
inductive SnapshotError where
  | noBillableModels
  | nullEntry
  | emptyModel
  | duplicateModel (model : List Char)
  | absentModel (model : List Char)
  | countMismatch (candidates rows : Nat)
  | nullVariant
  | emptyVariantModel
  | absentVariantModel (model : List Char)
  | effectRequired (seq : Int)
  | duplicateSeq (seq : Int)
  | suspicious (current candidate overlap : Nat)
  | database (statement : Statement)
  deriving DecidableEq, Repr

/-- The errors that wrap `ErrSuspiciousPriceSnapshot`. -/
def SnapshotError.isSuspicious : SnapshotError → Bool
  | .noBillableModels | .suspicious _ _ _ => true
  | _ => false

def sortStrings (l : List (List Char)) : List (List Char) := l.insertionSort (· ≤ ·)

def normalizeModelList (models : List (List Char)) : List (List Char) :=
  sortStrings ((models.map trimSpace).filter (· ≠ [])).dedup

/-- The loop over the candidate's rows; `seen` are the models of the rows before. -/
def checkEntries (candidates : List (List Char)) :
    List (List Char) → List (Option PriceEntry) → Except SnapshotError (List PriceEntry)
  | _, [] => .ok []
  | _, none :: _ => .error .nullEntry
  | seen, some entry :: rest =>
    let model := trimSpace entry.model
    if model = [] then .error .emptyModel
    else if model ∈ seen then .error (.duplicateModel model)
    else if model ∉ candidates then .error (.absentModel model)
    else do
      let ordered ← checkEntries candidates (model :: seen) rest
      .ok ({ entry with model := model } :: ordered)

/-- The variants with their models trimmed, each of a model in the snapshot. -/
def checkVariants (candidates : List (List Char)) :
    List (Option PriceVariant) → Except SnapshotError (List PriceVariant)
  | [] => .ok []
  | none :: _ => .error .nullVariant
  | some variant :: rest =>
    let model := trimSpace variant.model
    if model = [] then .error .emptyVariantModel
    else if model ∉ candidates then .error (.absentVariantModel model)
    else do
      let normalized ← checkVariants candidates rest
      .ok ({ variant with model := model } :: normalized)

/-- A candidate that has passed the checks: its models, its rows in the order of their models, and
its variants. -/
structure Candidate where
  models : List (List Char)
  entries : List PriceEntry
  variants : List PriceVariant
  deriving DecidableEq, Repr

def checkSnapshot (entries : List (Option PriceEntry)) (variants : List (Option PriceVariant))
    (models : List (List Char)) : Except SnapshotError Candidate := do
  let models := normalizeModelList models
  if models = [] then .error .noBillableModels
  else
    let ordered ← checkEntries models [] entries
    if ordered.length ≠ models.length then
      .error (.countMismatch models.length ordered.length)
    else
      let normalized ← checkVariants models variants
      .ok ⟨models, ordered.insertionSort fun a b => a.model ≤ b.model, normalized⟩

/-- The columns of the upsert: a manual row that a new row conflicts with is left as it is. -/
def litellmUpsert (now : Int) : Upsert PriceEntry (List Char) where
  key := PriceEntry.model
  insert x := { x with source := .litellm, createdAt := now, updatedAt := now }
  update y x := { x with
    model := y.model, source := y.source, createdAt := y.createdAt, updatedAt := now }
  cond y := y.source ≠ .manual
  key_insert _ := rfl
  key_update _ _ := rfl

def litellmBatchSize : Nat := 500

def upsertLitellmBatch (now : Int) (stored batch : List PriceEntry) : List PriceEntry :=
  (litellmUpsert now).all stored (batch.insertionSort fun a b => a.model ≤ b.model)

def upsertEntries (now : Int) (stored rows : List PriceEntry) : List PriceEntry :=
  (batches litellmBatchSize rows).foldl (upsertLitellmBatch now) stored

def PriceVariant.hasEffect (v : PriceVariant) : Bool :=
  v.multBP.isSome || v.setInputPerM.isSome || v.setOutputPerM.isSome ||
    v.setCacheReadPerM.isSome || v.setCacheCreationPerM.isSome || v.setPricePerCall.isSome ||
    v.setImgInTokPerM.isSome || v.setImgOutTokPerM.isSome || v.setPricePerImage.isSome

/-- The checks of `ReplaceBatch`: every variant has an effect, and no two the same number. -/
def checkBatch : List Int → List PriceVariant → Except SnapshotError Unit
  | _, [] => .ok ()
  | seqs, v :: rest =>
    if !v.hasEffect then .error (.effectRequired v.seq)
    else if v.seq ∈ seqs then .error (.duplicateSeq v.seq)
    else checkBatch (v.seq :: seqs) rest

def ofModel (model : List Char) (variants : List PriceVariant) : List PriceVariant :=
  variants.filter fun v => v.model = model

def replaceBatch (stored : List PriceVariant) (model : List Char) (batch : List PriceVariant) :
    Except SnapshotError (List PriceVariant) := do
  checkBatch [] batch
  .ok ((stored.filter fun v => v.model ≠ model) ++
    (batch.insertionSort fun a b => a.seq ≤ b.seq).map fun v => { v with model := model })

def variantModels (variants : List PriceVariant) : List (List Char) :=
  sortStrings (variants.map PriceVariant.model).dedup

/-- A database error at a statement ends the transaction. -/
def guarded {α : Type} (faults : Statement → Bool) (statement : Statement)
    (x : Except SnapshotError α) : Except SnapshotError α :=
  if faults statement then .error (.database statement) else x

def replaceAll (faults : Statement → Bool) (variants : List PriceVariant) :
    List PriceVariant → List (List Char) → Except SnapshotError (List PriceVariant)
  | stored, [] => .ok stored
  | stored, model :: rest => do
    let stored ← guarded faults (.replaceBatch model)
      (replaceBatch stored model (ofModel model variants))
    replaceAll faults variants stored rest

def snapshotShrinkGuardMinExisting : Nat := 100

def snapshotOverlapGuardMinExisting : Nat := 100

def snapshotOverlapMinPercent : Nat := 5

def suspiciousPriceSnapshotShrink (current candidate : Nat) : Bool :=
  if current < snapshotShrinkGuardMinExisting then false else candidate < (current + 1) / 2

def snapshotModelOverlap (current candidate : List (List Char)) : Nat :=
  (candidate.dedup.filter (· ∈ current)).length

def suspiciousPriceSnapshotContent (current candidate : List (List Char)) : Bool :=
  let current := normalizeModelList current
  let candidate := normalizeModelList candidate
  if current.length < snapshotOverlapGuardMinExisting ∨ candidate.length = 0 then false
  else snapshotModelOverlap current candidate * 100 <
    min current.length candidate.length * snapshotOverlapMinPercent

def PriceEntry.isOfficial (e : PriceEntry) : Bool := e.source == .litellm

def PriceEntry.isManual (e : PriceEntry) : Bool := e.source == .manual

open PriceEntry (isOfficial isManual)

def modelsWhere (p : PriceEntry → Bool) (entries : List PriceEntry) : List (List Char) :=
  (entries.filter p).map PriceEntry.model

/-- The trimmed models of rows, without the blank ones. -/
def trimmedModels (models : List (List Char)) : List (List Char) :=
  (models.map trimSpace).filter (· ≠ [])

/-- The models of a candidate with a manual row. -/
def manualCandidates (entries : List PriceEntry) (models : List (List Char)) : List (List Char) :=
  (trimmedModels (modelsWhere (fun e => e.isManual && e.model ∈ models) entries)).dedup

def staleModels (entries : List PriceEntry) (models : List (List Char)) : List (List Char) :=
  (modelsWhere (fun e => e.isOfficial && e.model ∉ models) entries).filter
    fun m => trimSpace m ≠ []

def officialClear (models withVariants manual : List (List Char)) : List (List Char) :=
  (models.filter (· ∉ withVariants)).filter (· ∉ manual)

/-- The catalogue after the deletes of `ReconcileLiteLLMSnapshot`. -/
def reconciled (entries : List PriceEntry) (variants : List PriceVariant)
    (models withVariants manual : List (List Char)) : List PriceEntry × List PriceVariant :=
  (entries.filter fun e => !(e.isOfficial && e.model ∈ staleModels entries models),
    (variants.filter fun v => v.model ∉ staleModels entries models).filter
      fun v => v.model ∉ officialClear models withVariants manual)

/-- A snapshot replaces the official rows unless too much of the catalogue would go. -/
def reconcileLiteLLMSnapshot (entries : List PriceEntry) (variants : List PriceVariant)
    (models withVariants : List (List Char)) :
    Except SnapshotError (List PriceEntry × List PriceVariant) :=
  let models := normalizeModelList models
  if models = [] then .ok (entries, variants)
  else
    let withVariants := normalizeModelList withVariants
    let currentRows := (entries.filter isOfficial).length
    let currentModels := trimmedModels (modelsWhere isOfficial entries)
    let manual := manualCandidates entries models
    let candidateRows := models.length - manual.length
    let official := models.filter (· ∉ manual)
    if suspiciousPriceSnapshotShrink currentRows candidateRows ||
        suspiciousPriceSnapshotContent currentModels official then
      .error (.suspicious currentRows candidateRows (snapshotModelOverlap currentModels official))
    else .ok (reconciled entries variants models withVariants manual)

/-- The variants of a candidate, without those of manual models. -/
def filteredVariants (entries : List PriceEntry) (variants : List PriceVariant) :
    List PriceVariant :=
  variants.filter fun v => v.model ∉ trimmedModels (modelsWhere isManual entries)

/-- What the transaction leaves in the two tables, with the rows and the variants it has counted.
A manual row that the upsert leaves is not counted. -/
def publish (faults : Statement → Bool) (cat : Catalogue) (now : Int) (c : Candidate) :
    Except SnapshotError ((List PriceEntry × List PriceVariant) × Nat × Nat) := do
  guarded faults .begin (.ok ())
  guarded faults .manualModels (.ok ())
  let filtered := filteredVariants cat.entries c.variants
  match (List.range (batches litellmBatchSize c.entries).length).find? fun i =>
      faults (.upsertBatch i) with
  | some i => .error (.database (.upsertBatch i))
  | none => do
    let entries := upsertEntries now cat.entries c.entries
    let variants ← replaceAll faults filtered cat.variants (variantModels filtered)
    let tables ← guarded faults .reconcileRead
      (reconcileLiteLLMSnapshot entries variants c.models (filtered.map PriceVariant.model))
    guarded faults .reconcileDelete (.ok ())
    let n := (c.entries.filter fun e =>
      e.model ∉ modelsWhere isManual cat.entries).length
    guarded faults .commit (.ok (tables, n, filtered.length))

section
variable {now : Int} {stored rows : List PriceEntry} {m : List Char}

theorem find?_perm {α κ : Type} [DecidableEq κ] (key : α → κ) {l l' : List α} (h : l.Perm l')
    (hkeys : (l.map key).Nodup) (k : κ) :
    l.find? (fun r => key r = k) = l'.find? fun r => key r = k := by
  have hkeys' : (l'.map key).Nodup := (h.map key).nodup_iff.mp hkeys
  ext r
  rw [find?_key_iff hkeys, find?_key_iff hkeys', h.mem_iff]

theorem foldl_batches (now : Int) (stored : List PriceEntry) (bs : List (List PriceEntry)) :
    bs.foldl (upsertLitellmBatch now) stored = (litellmUpsert now).all stored
      (bs.map fun b => b.insertionSort fun a b => a.model ≤ b.model).flatten := by
  induction bs generalizing stored with
  | nil => rfl
  | cons b bs ih =>
    rw [foldl_cons, ih, map_cons, flatten_cons, Upsert.all, Upsert.all, foldl_append]
    rfl

theorem sorted_batches_perm (rows : List PriceEntry) :
    ((batches litellmBatchSize rows).map fun b =>
      b.insertionSort fun a b => a.model ≤ b.model).flatten.Perm rows := by
  have hflat := batches_flatten (n := litellmBatchSize) (by decide) rows
  nth_rewrite 2 [← hflat]
  refine Perm.flatten_congr ?_
  rw [forall₂_map_left_iff]
  exact forall₂_same.mpr fun b _ => perm_insertionSort _ b

/-- The row of a model after the upsert of a candidate. -/
theorem find?_upsertEntries (h : (rows.map PriceEntry.model).Nodup) (m : List Char) :
    (upsertEntries now stored rows).find? (fun r => r.model = m) =
      ((rows.find? fun x => x.model = m).map
        ((litellmUpsert now).result (stored.find? fun r => r.model = m))).or
        (stored.find? fun r => r.model = m) := by
  have hperm := sorted_batches_perm rows
  have hkeys := (hperm.map PriceEntry.model).nodup_iff.mpr h
  rw [upsertEntries, foldl_batches]
  have hfind := (litellmUpsert now).find?_all stored hkeys m
  rw [find?_perm (litellmUpsert now).key hperm hkeys] at hfind
  exact hfind

theorem keys_upsertEntries (h : (stored.map PriceEntry.model).Nodup) :
    ((upsertEntries now stored rows).map PriceEntry.model).Nodup := by
  rw [upsertEntries, foldl_batches]
  exact (litellmUpsert now).keys_all h

variable {entries : List PriceEntry}

theorem mem_modelsWhere {p : PriceEntry → Bool} :
    m ∈ modelsWhere p entries ↔ ∃ e ∈ entries, p e = true ∧ e.model = m := by
  simp [modelsWhere, and_assoc]

theorem isOfficial_iff (e : PriceEntry) : e.isOfficial = true ↔ e.isManual = false := by
  cases h : e.source <;> simp [isOfficial, isManual, h]

theorem find?_model_eq_none :
    entries.find? (fun r => r.model = m) = none ↔ m ∉ entries.map PriceEntry.model := by
  simp

section
variable (hrows : (rows.map PriceEntry.model).Nodup)
include hrows

section
variable (hstored : (stored.map PriceEntry.model).Nodup)
include hstored

/-- The rows after the upsert: those it leaves, those it inserts, and those it updates. -/
theorem mem_upsertEntries (e : PriceEntry) :
    e ∈ upsertEntries now stored rows ↔
      (e ∈ stored ∧ (e.isManual = true ∨ e.model ∉ rows.map PriceEntry.model)) ∨
      (∃ x ∈ rows, x.model ∉ stored.map PriceEntry.model ∧ e = (litellmUpsert now).insert x) ∨
      ∃ x ∈ rows, ∃ y ∈ stored, y.model = x.model ∧ y.isManual = false ∧
        e = (litellmUpsert now).update y x := by
  have hmem : e ∈ upsertEntries now stored rows ↔
      (upsertEntries now stored rows).find? (fun r => r.model = e.model) = some e := by
    simp [find?_key_iff (keys_upsertEntries hstored)]
  rw [hmem, find?_upsertEntries hrows]
  have hconflict (y x : PriceEntry) : (litellmUpsert now).conflict y x =
      if y.isManual then y else (litellmUpsert now).update y x := by
    cases hsource : y.source <;> simp [Upsert.conflict, litellmUpsert, isManual]
  constructor
  · intro h
    cases hx : rows.find? fun x => x.model = e.model with
    | none =>
      rw [hx] at h
      exact .inl ⟨((find?_key_iff hstored).mp h).1, .inr (find?_model_eq_none.mp hx)⟩
    | some x =>
      obtain ⟨hxmem, hxm⟩ := (find?_key_iff hrows).mp hx
      rw [hx, Option.map_some, Option.some_or, Option.some.injEq] at h
      cases hy : stored.find? fun r => r.model = e.model with
      | none =>
        rw [hy] at h
        exact .inr (.inl ⟨x, hxmem, hxm ▸ find?_model_eq_none.mp hy, h.symm⟩)
      | some y =>
        obtain ⟨hymem, hym⟩ := (find?_key_iff hstored).mp hy
        rw [hy, Upsert.result, hconflict] at h
        cases hmanual : y.isManual with
        | true =>
          rw [hmanual] at h
          subst h
          exact .inl ⟨hymem, .inl hmanual⟩
        | false =>
          rw [hmanual] at h
          exact .inr (.inr ⟨x, hxmem, y, hymem, hym.trans hxm.symm, hmanual, h.symm⟩)
  · rintro (⟨he, hkeep⟩ | ⟨x, hx, hnew, rfl⟩ | ⟨x, hx, y, hy, hkey, hofficial, rfl⟩)
    · rw [(find?_key_iff hstored).mpr ⟨he, rfl⟩]
      rcases hkeep with hmanual | hout
      · cases hx : rows.find? fun x => x.model = e.model with
        | none => rfl
        | some x => simp [Upsert.result, hconflict, hmanual]
      · rw [find?_model_eq_none.mpr hout]
        rfl
    · have hmodel : ((litellmUpsert now).insert x).model = x.model := rfl
      rw [hmodel, (find?_key_iff hrows).mpr ⟨hx, rfl⟩, find?_model_eq_none.mpr hnew]
      rfl
    · have hmodel : ((litellmUpsert now).update y x).model = x.model := hkey
      rw [hmodel, (find?_key_iff hrows).mpr ⟨hx, rfl⟩, (find?_key_iff hstored).mpr ⟨hy, hkey⟩]
      simp [Upsert.result, hconflict, hofficial]

/-- The official models after the upsert: the stored ones, and those of the candidate without a
manual row. -/
theorem mem_official_upsertEntries (m : List Char) :
    m ∈ modelsWhere isOfficial (upsertEntries now stored rows) ↔
      m ∈ modelsWhere isOfficial stored ∨
        (m ∈ rows.map PriceEntry.model ∧ m ∉ modelsWhere isManual stored) := by
  have hupdate {x y : PriceEntry} (hy : y.isManual = false) :
      ((litellmUpsert now).update y x).isOfficial = true := (isOfficial_iff y).mpr hy
  simp only [mem_modelsWhere, mem_upsertEntries hrows hstored]
  constructor
  · rintro ⟨e, ⟨he, -⟩ | ⟨x, hx, hnew, rfl⟩ | ⟨x, hx, y, hy, hkey, hofficial, rfl⟩, hpe, rfl⟩
    · exact .inl ⟨e, he, hpe, rfl⟩
    · refine .inr ⟨mem_map.mpr ⟨x, hx, rfl⟩, ?_⟩
      rintro ⟨y, hy, -, hym⟩
      exact hnew (mem_map.mpr ⟨y, hy, hym⟩)
    · exact .inl ⟨y, hy, (isOfficial_iff y).mpr hofficial, rfl⟩
  · rintro (⟨e, he, hofficial, rfl⟩ | ⟨hrow, hmanual⟩)
    · by_cases hin : e.model ∈ rows.map PriceEntry.model
      · obtain ⟨x, hx, hkey⟩ := mem_map.mp hin
        have hnot := (isOfficial_iff e).mp hofficial
        exact ⟨_, .inr (.inr ⟨x, hx, e, he, hkey.symm, hnot, rfl⟩), hupdate hnot, rfl⟩
      · exact ⟨e, .inl ⟨he, .inr hin⟩, hofficial, rfl⟩
    · obtain ⟨x, hx, rfl⟩ := mem_map.mp hrow
      by_cases hin : x.model ∈ stored.map PriceEntry.model
      · obtain ⟨y, hy, hkey⟩ := mem_map.mp hin
        have hnot : y.isManual = false := by
          by_contra htrue
          exact hmanual ⟨y, hy, by simpa using htrue, hkey⟩
        exact ⟨_, .inr (.inr ⟨x, hx, y, hy, hkey, hnot, rfl⟩), hupdate hnot, hkey⟩
      · exact ⟨_, .inr (.inl ⟨x, hx, hin, rfl⟩), rfl, rfl⟩

/-- The upsert leaves the manual rows, and makes no other. -/
theorem manual_upsertEntries (e : PriceEntry) :
    (e ∈ upsertEntries now stored rows ∧ e.isManual = true) ↔ (e ∈ stored ∧ e.isManual = true) := by
  rw [mem_upsertEntries hrows hstored]
  constructor
  · rintro ⟨⟨he, -⟩ | ⟨x, hx, hnew, rfl⟩ | ⟨x, hx, y, hy, hkey, hofficial, rfl⟩, hmanual⟩
    · exact ⟨he, hmanual⟩
    · cases hmanual
    · have hmanual : y.isManual = true := hmanual
      simp [hofficial] at hmanual
  · rintro ⟨he, hmanual⟩
    exact ⟨.inl ⟨he, .inl hmanual⟩, hmanual⟩

end
end

theorem named_upsertEntries (hrows : ∀ x ∈ rows, x.model ≠ [])
    (hstored : ∀ e ∈ stored, e.model ≠ [])
    (hkeys : (rows.map PriceEntry.model).Nodup) (hkeys' : (stored.map PriceEntry.model).Nodup) :
    ∀ e ∈ upsertEntries now stored rows, e.model ≠ [] := by
  intro e he
  rw [mem_upsertEntries hkeys hkeys'] at he
  rcases he with ⟨he, -⟩ | ⟨x, hx, -, rfl⟩ | ⟨x, hx, y, hy, -, -, rfl⟩
  · exact hstored e he
  · exact hrows x hx
  · exact hstored y hy

end

section
variable {faults : Statement → Bool} {variants stored stored' : List PriceVariant} {m : List Char}
  {seqs : List Int} {v : PriceVariant} {batch : List PriceVariant} {models : List (List Char)}
  {model : List Char}

/-- A batch that `ReplaceBatch` accepts. -/
def batchValid (batch : List PriceVariant) : Prop :=
  (∀ v ∈ batch, v.hasEffect = true) ∧ (batch.map PriceVariant.seq).Nodup

theorem checkBatch_iff : checkBatch seqs batch = .ok () ↔
    batchValid batch ∧ ∀ v ∈ batch, v.seq ∉ seqs := by
  induction batch generalizing seqs with
  | nil => simp [checkBatch, batchValid]
  | cons v rest ih =>
    have hfresh : (∀ w ∈ rest, w.seq ∉ v.seq :: seqs) ↔
        v.seq ∉ rest.map PriceVariant.seq ∧ ∀ w ∈ rest, w.seq ∉ seqs := by
      simp [forall_and]
    simp only [checkBatch, ite_error_eq_ok_iff, ih, hfresh, batchValid, forall_mem_cons, map_cons,
      nodup_cons, Bool.not_eq_true', Bool.not_eq_false]
    tauto

theorem checkBatch_eq_ok_iff (batch : List PriceVariant) :
    checkBatch [] batch = .ok () ↔ batchValid batch := by
  simp [checkBatch_iff]

/-- The variants that `ReplaceBatch` stores for a model. -/
def replaced (model : List Char) (variants : List PriceVariant) : List PriceVariant :=
  (ofModel model variants).insertionSort fun a b => a.seq ≤ b.seq

theorem replaced_perm (model : List Char) (variants : List PriceVariant) :
    (replaced model variants).Perm (ofModel model variants) :=
  perm_insertionSort _ _

theorem mem_ofModel : v ∈ ofModel model variants ↔ v ∈ variants ∧ v.model = model := by
  simp [ofModel]

theorem replaceBatch_eq_ok_iff :
    replaceBatch stored model (ofModel model variants) = .ok stored' ↔
      batchValid (ofModel model variants) ∧
        stored' = (stored.filter fun v => v.model ≠ model) ++ replaced model variants := by
  have hmap : ((ofModel model variants).insertionSort fun a b => a.seq ≤ b.seq).map
      (fun v => { v with model := model }) = replaced model variants := by
    have hid : ∀ v ∈ replaced model variants, { v with model := model } = v := by
      intro v hv
      rw [(replaced_perm model variants).mem_iff, mem_ofModel] at hv
      rw [← hv.2]
    exact (map_congr_left hid).trans (map_id _)
  rw [← checkBatch_eq_ok_iff, replaceBatch, hmap, bind_eq_ok_iff]
  exact ⟨fun ⟨_, hcheck, h⟩ => ⟨hcheck, (Except.ok.inj h).symm⟩,
    fun ⟨hcheck, h⟩ => ⟨(), hcheck, congrArg _ h.symm⟩⟩

theorem guarded_eq_ok_iff {α : Type} {st : Statement} {x : Except SnapshotError α} {a : α} :
    guarded faults st x = .ok a ↔ faults st = false ∧ x = .ok a := by
  rw [guarded, ite_error_eq_ok_iff, Bool.not_eq_true]

theorem ofModel_append (l l' : List PriceVariant) (m : List Char) :
    ofModel m (l ++ l') = ofModel m l ++ ofModel m l' := by
  simp [ofModel]

theorem ofModel_filter_notMem (l : List PriceVariant) (s : List (List Char)) (m : List Char) :
    ofModel m (l.filter fun v => v.model ∉ s) = if m ∈ s then [] else ofModel m l := by
  simp only [ofModel, filter_filter]
  split
  · next hin =>
    refine filter_eq_nil_iff.mpr fun v _ hv => ?_
    simp only [Bool.and_eq_true, decide_eq_true_eq] at hv
    exact hv.2 (hv.1 ▸ hin)
  · next hout =>
    refine filter_congr fun v _ => ?_
    by_cases hv : v.model = m
    · simp [hv, hout]
    · simp [hv]

theorem model_replaced (hv : v ∈ replaced model variants) : v.model = model :=
  (mem_ofModel.mp ((replaced_perm model variants).mem_iff.mp hv)).2

theorem ofModel_replaced (m model : List Char) (variants : List PriceVariant) :
    ofModel m (replaced model variants) = if m = model then replaced model variants else [] := by
  split
  · next heq => exact filter_eq_self.mpr fun v hv => by simp [model_replaced hv, heq]
  · next hne =>
    exact filter_eq_nil_iff.mpr fun v hv => by simp [model_replaced hv, Ne.symm hne]

theorem replaceAll_cons {rest : List (List Char)} :
    replaceAll faults variants stored (model :: rest) = .ok stored' ↔
      faults (.replaceBatch model) = false ∧ batchValid (ofModel model variants) ∧
        replaceAll faults variants
          ((stored.filter fun v => v.model ≠ model) ++ replaced model variants) rest =
            .ok stored' := by
  simp only [replaceAll, bind_eq_ok_iff, guarded_eq_ok_iff, replaceBatch_eq_ok_iff, and_assoc,
    exists_and_left, exists_eq_left]

/-- The replacement of the variants, model by model. -/
theorem replaceAll_ok (hmodels : models.Nodup)
    (h : replaceAll faults variants stored models = .ok stored') :
    (∀ m ∈ models, faults (.replaceBatch m) = false ∧ batchValid (ofModel m variants)) ∧
      ∀ m, ofModel m stored' =
        if m ∈ models then replaced m variants else ofModel m stored := by
  induction models generalizing stored with
  | nil =>
    cases h
    simp
  | cons model rest ih =>
    rw [nodup_cons] at hmodels
    obtain ⟨hfault, hvalid, h⟩ := replaceAll_cons.mp h
    obtain ⟨hvalids, hof⟩ := ih hmodels.2 h
    refine ⟨forall_mem_cons.mpr ⟨⟨hfault, hvalid⟩, hvalids⟩, fun m => ?_⟩
    have hfilter : ofModel m (stored.filter fun v => v.model ≠ model) =
        if m = model then [] else ofModel m stored := by
      simpa using ofModel_filter_notMem stored [model] m
    rw [hof, ofModel_append, ofModel_replaced, hfilter]
    by_cases hm : m = model
    · subst hm
      simp
    · simp [hm]

theorem replaceAll_keys (hkeys : (stored.map PriceVariant.key).Nodup)
    (h : replaceAll faults variants stored models = .ok stored') :
    (stored'.map PriceVariant.key).Nodup := by
  induction models generalizing stored with
  | nil =>
    cases h
    exact hkeys
  | cons model rest ih =>
    obtain ⟨-, hvalid, h⟩ := replaceAll_cons.mp h
    refine ih ?_ h
    rw [map_append, nodup_append]
    refine ⟨hkeys.sublist (filter_sublist.map _), ?_, ?_⟩
    · refine Nodup.of_map Prod.snd ?_
      rw [map_map]
      exact ((replaced_perm model variants).map PriceVariant.seq).nodup_iff.mpr hvalid.2
    · intro a ha b hb hab
      obtain ⟨v, hv, rfl⟩ := mem_map.mp ha
      obtain ⟨w, hw, rfl⟩ := mem_map.mp hb
      have hne : v.model ≠ model := by simpa using (mem_filter.mp hv).2
      exact hne ((congrArg Prod.fst hab).trans (model_replaced hw))

theorem replaceAll_succeeds
    (hvalid : ∀ m ∈ models, faults (.replaceBatch m) = false ∧ batchValid (ofModel m variants)) :
    ∃ stored', replaceAll faults variants stored models = .ok stored' := by
  induction models generalizing stored with
  | nil => exact ⟨stored, rfl⟩
  | cons model rest ih =>
    obtain ⟨hhead, hvalid⟩ := forall_mem_cons.mp hvalid
    obtain ⟨stored', hrest⟩ := ih hvalid
    exact ⟨stored', replaceAll_cons.mpr ⟨hhead.1, hhead.2, hrest⟩⟩

end
end C4Gateway.Pricing
