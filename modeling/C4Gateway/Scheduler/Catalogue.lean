import C4Gateway.Domain
import C4Gateway.Lib.Update
import C4Gateway.Pricing.Alias
import Mathlib.Data.List.Chain
import Mathlib.Data.List.Dedup
import Mathlib.Data.List.Sort

/-! Which model a group of upstream members serves for a request.  Routes and the ids of a member's
catalogue are found by a key that leaves case and separators out, and a selection sends the id that
the member's maps have for the key.  A name is the list of its bytes, as for the prices. -/

namespace C4Gateway.Catalogue

open List

open Pricing (Strings modelMatchKey dashed)
open Text

abbrev Name := List Char

/-- What the routing of names needs of the functions of package `strings`. -/
structure Names extends Strings where
  canonical_idem : ∀ s, toLower (trimSpace (toLower (trimSpace s))) = toLower (trimSpace s)
  toLower_eq_nil : ∀ s, toLower s = [] ↔ s = []
  trimSpace_nil : trimSpace [] = []

/-- The catalogue of a provider; `modelFormats` is a map. -/
structure Upstream where
  enabled : Bool := true
  models : List Name := []
  modelFormats : List (Name × List RequestFormat) := []
  modelsCheckedAt : Option Int := none
  nodup_formats : (modelFormats.map (·.1)).Nodup

def Upstream.formatModels (u : Upstream) : List Name := u.modelFormats.map (·.1)

def Upstream.formatsOf (u : Upstream) (raw : Name) : List RequestFormat :=
  (u.modelFormats.lookup raw).getD []

/-- A member of a group, with its upstream. -/
structure Member where
  id : Int
  enabled : Bool := true
  weight : Int := 100
  priority : Int := 0
  upstream : Upstream

/-- A member with the ids of its models, also by format. -/
structure UpstreamSnapshot where
  member : Member
  modelIDs : Name → Option Name
  formatModelIDs : Name × RequestFormat → Option Name

def UpstreamSnapshot.enabled (item : UpstreamSnapshot) : Bool :=
  item.member.enabled && item.member.upstream.enabled

section
variable (S : Names)

def canonicalModelID (model : Name) : Name := S.toLower (S.trimSpace model)

def matchKey (model : Name) : Name := modelMatchKey S.toStrings model

def sorted (models : List Name) : List Name := models.insertionSort (· ≤ ·)

/-- The first id of a key stands, unless it is blank. -/
def addModel (ids : Name → Option Name) (raw : Name) : Name → Option Name :=
  if canonicalModelID S raw ≠ [] then
    Update.addNew ids (matchKey S (canonicalModelID S raw)) (S.trimSpace raw)
  else ids

def addModelFormat (ids : Name × RequestFormat → Option Name) (e : Name × RequestFormat) :
    Name × RequestFormat → Option Name :=
  if canonicalModelID S e.1 ≠ [] then
    Update.addNew ids (matchKey S (canonicalModelID S e.1), e.2) (S.trimSpace e.1)
  else ids

def newUpstreamSnapshot (member : Member) : UpstreamSnapshot :=
  let u := member.upstream
  let formatModels := sorted u.formatModels
  { member
    modelIDs := formatModels.foldl (addModel S)
      ((sorted u.models).foldl (addModel S) fun _ => none)
    formatModelIDs := formatModels.foldl
      (fun ids raw => ((u.formatsOf raw).map fun format => (raw, format)).foldl
        (addModelFormat S) ids)
      fun _ => none }

def rawModelFor (u : UpstreamSnapshot) (model : Name) (format : RequestFormat) (requested : Name) :
    Name :=
  let id := matchKey S model
  match (u.formatModelIDs (id, format)).filter (· ≠ []) with
  | some raw => raw
  | none =>
    match (u.modelIDs id).filter (· ≠ []) with
    | some raw => raw
    | none => if S.trimSpace requested ≠ [] then S.trimSpace requested else S.trimSpace model

/-- The formats recorded for the spellings of a model, if any spelling is recorded. -/
def upstreamModelFormats (all : List (Name × List RequestFormat)) (model : Name) :
    Option (List RequestFormat) :=
  match all.filter fun e => matchKey S e.1 = matchKey S model with
  | [] => none
  | found => some (found.flatMap (·.2)).dedup

def upstreamSupportsModel (u : Upstream) (model : Name) : Bool :=
  let model := canonicalModelID S model
  if model = [] then false
  else if u.modelsCheckedAt.isNone then true
  else u.models.any (fun candidate => matchKey S candidate = matchKey S model) ||
    (upstreamModelFormats S u.modelFormats model).isSome

def upstreamSupportsModelFormat (u : Upstream) (model : Name) (format : RequestFormat) : Bool :=
  let model := canonicalModelID S model
  upstreamSupportsModel S u model &&
    match upstreamModelFormats S u.modelFormats model with
    | none => format = .openaiChat
    | some formats => formats.contains format

def upstreamCandidatesForModelFormat (pool : List UpstreamSnapshot) (model : Name)
    (format : RequestFormat) : List UpstreamSnapshot :=
  pool.filter fun item =>
    item.enabled && upstreamSupportsModelFormat S item.member.upstream model format

def confirmedKeys (models : List Name) : List Name :=
  (models.filter (canonicalModelID S · ≠ [])).map fun raw => matchKey S (canonicalModelID S raw)

/-- The keys of all confirmed models, or the flag that no member has a catalogue yet. -/
def upstreamModelIntersection (pool : List UpstreamSnapshot) : List Name × Bool :=
  let live := pool.filter (·.enabled)
  let checked := live.filter (·.member.upstream.modelsCheckedAt.isSome)
  if checked.isEmpty then ([], !live.isEmpty)
  else
    (sorted (checked.flatMap fun item => confirmedKeys S item.member.upstream.models ++
      confirmedKeys S item.member.upstream.formatModels).dedup, false)

end

def maxSeqLen : Nat := 4096

def seqWeight (item : UpstreamSnapshot) : Nat :=
  if item.member.weight ≤ 0 then 100 else min item.member.weight.toNat 10000

/-- Every candidate at least once, as often as its weight says. -/
def newUpstreamWeightedSeq (pool : List UpstreamSnapshot) : List UpstreamSnapshot :=
  let g := pool.foldl (fun g item => Nat.gcd g (seqWeight item)) 0
  let total := (pool.map fun item => seqWeight item / g).sum
  let scale := if total > maxSeqLen then (total + maxSeqLen - 1) / maxSeqLen else 1
  pool.flatMap fun item => List.replicate (max (seqWeight item / g / scale) 1) item

/-- The sequences of a route by priority: the first is `seq`, the others are `fallback`. -/
def buildRoute (candidates : List UpstreamSnapshot) : List (List UpstreamSnapshot) :=
  let priorities := (candidates.map (·.member.priority)).dedup.insertionSort (· ≤ ·)
  (priorities.map fun priority =>
    newUpstreamWeightedSeq (candidates.filter (·.member.priority = priority))).filter
    (!·.isEmpty)

def formats : List RequestFormat :=
  [.openaiChat, .openaiResponses, .openaiResponsesWS, .anthropic, .openaiImages, .openaiSearch]

abbrev Routes := List ((RequestFormat × Name) × List (List UpstreamSnapshot))

section
variable (S : Names)

def modelRoutes (pool : List UpstreamSnapshot) (models : List Name) : Routes :=
  models.flatMap fun model => formats.filterMap fun format =>
    let candidates := upstreamCandidatesForModelFormat S pool model format
    if candidates.isEmpty then none else some ((format, model), buildRoute candidates)

/-- Without an allow list every confirmed model is routed; a pool without any catalogue has one
route for all models of the Chat format. -/
def buildUpstreamRoutes (pool : List UpstreamSnapshot) (allowed : List Name) : Routes :=
  if allowed.isEmpty then
    let (models, legacyFallback) := upstreamModelIntersection S pool
    if legacyFallback then [((.openaiChat, []), buildRoute pool)]
    else modelRoutes S pool models
  else modelRoutes S pool (sorted (confirmedKeys S allowed).dedup)

/-- A group in upstream mode.  `modelAliases` is the map of `buildModelAliases`. -/
structure GroupSnapshot where
  upstreamRoutes : Routes
  modelAliases : RequestFormat → Name → Option Name

def newGroupSnapshot (members : List Member) (allowed : List Name)
    (modelAliases : RequestFormat → Name → Option Name) : GroupSnapshot where
  upstreamRoutes := buildUpstreamRoutes S (members.map (newUpstreamSnapshot S)) allowed
  modelAliases

def GroupSnapshot.routed (gs : GroupSnapshot) (format : RequestFormat) (model : Name) : Bool :=
  (gs.upstreamRoutes.lookup (format, model)).isSome

/-- The name itself if a route has it, then its key, then an alias that has a route. -/
def resolveGroupModel (gs : GroupSnapshot) (format : RequestFormat) (requested : Name) : Name :=
  let model := canonicalModelID S (S.trimSpace requested)
  let identity := matchKey S requested
  if gs.routed format model then model
  else if gs.routed format identity then identity
  else
    let target := ((gs.modelAliases format (S.toLower (S.trimSpace requested))).filter
      (· ≠ [])).or ((gs.modelAliases format identity).filter (· ≠ []))
    (target.filter (gs.routed format)).getD model

inductive SelectError where
  | formatUnavailable
  | noAvailable
  deriving DecidableEq

/-- A selected member, the model to ask it for, and the one to price. -/
structure Selection where
  upstreamRef : UpstreamSnapshot
  model : Name
  pricingModel : Name

/-- What a call meets at one advance of a sequence: the value of the shared cursor, and whether it
takes a slot of the entry there (not excluded, not cooling down, not full, no lost swap). -/
structure Visit where
  cursor : Nat
  takes : Bool

def scan (visits : Nat → Visit) (seq : List UpstreamSnapshot) : Option UpstreamSnapshot :=
  (List.range seq.length).findSome? fun i =>
    (seq[(visits i).cursor % seq.length]?).filter fun item => item.enabled && (visits i).takes

/-- The first candidate that its visit accepts, over the sequences in turn. -/
def selectUpstream (gs : GroupSnapshot) (format : RequestFormat) (model requestedModel : Name)
    (visits : Nat → Nat → Visit) : Except SelectError Selection :=
  let model := canonicalModelID S model
  match (gs.upstreamRoutes.lookup (format, model)).or (gs.upstreamRoutes.lookup (format, [])) with
  | none | some [] => .error .formatUnavailable
  | some sequences =>
    match sequences.zipIdx.findSome? fun (seq, q) => scan (visits q) seq with
    | none => .error .noAvailable
    | some item => .ok ⟨item, rawModelFor S item model format requestedModel, model⟩

/-- `SelectExcluding` for a group in upstream mode. -/
def selectExcluding (gs : GroupSnapshot) (format : RequestFormat) (model : Name)
    (visits : Nat → Nat → Visit) : Except SelectError Selection :=
  selectUpstream S gs format (resolveGroupModel S gs format model) model visits

end

/-- A text that the collapsing of separators leaves as it is. -/
def Collapsed (s : List Char) : Prop :=
  (∀ c ∈ s, c ≠ '_' ∧ c ≠ '.') ∧ s.IsChain fun a b => ¬(a = '-' ∧ b = '-')

theorem collapsed_dashed (lastDash : Bool) (s : List Char) :
    Collapsed (dashed lastDash s) ∧ (lastDash → (dashed lastDash s).head? ≠ some '-') := by
  induction s generalizing lastDash with
  | nil => simp [dashed, Collapsed]
  | cons c s ih =>
    simp only [dashed]
    by_cases hdash : (if c = '_' ∨ c = '.' then '-' else c) = '-'
    · rw [if_pos hdash]
      cases lastDash with
      | true => simpa using ih true
      | false =>
        obtain ⟨⟨hmem, hchain⟩, hhead⟩ := ih true
        refine ⟨⟨?_, ?_⟩, by simp⟩
        · simpa using hmem
        · rw [if_neg (by simp), isChain_cons]
          refine ⟨fun b hb => ?_, hchain⟩
          rintro ⟨-, rfl⟩
          exact hhead rfl hb
    · obtain ⟨⟨hmem, hchain⟩, -⟩ := ih false
      have hc : c ≠ '_' ∧ c ≠ '.' ∧ c ≠ '-' := by
        refine ⟨?_, ?_, ?_⟩ <;> rintro rfl <;> simp at hdash
      simp only [hc, or_self, if_false]
      refine ⟨⟨?_, ?_⟩, by simp [hc]⟩
      · simpa [hc] using hmem
      · rw [isChain_cons]
        exact ⟨fun b _ h => hc.2.2 h.1, hchain⟩

theorem Collapsed.dashed_eq {s : List Char} (h : Collapsed s) (lastDash : Bool)
    (hhead : lastDash → s.head? ≠ some '-') : dashed lastDash s = s := by
  induction s generalizing lastDash with
  | nil => rfl
  | cons c s ih =>
    obtain ⟨hmem, hchain⟩ := h
    rw [isChain_cons] at hchain
    have hc := hmem c mem_cons_self
    have hrest : Collapsed s := ⟨fun d hd => hmem d (mem_cons_of_mem _ hd), hchain.2⟩
    simp only [dashed, hc, or_self, if_false]
    by_cases hdash : c = '-'
    · have hlast : lastDash = false := by
        cases lastDash with
        | true => exact absurd (by simp [hdash]) (hhead rfl)
        | false => rfl
      rw [if_pos hdash, hlast, if_neg (by simp), hdash,
        ih hrest true fun _ hs => hchain.1 '-' hs ⟨hdash, rfl⟩]
    · rw [if_neg hdash, ih hrest false (by simp)]

theorem Collapsed.mono {s t : List Char} (h : Collapsed s) (ht : t <:+: s) : Collapsed t :=
  ⟨fun c hc => h.1 c (ht.subset hc), List.IsChain.infix h.2 ht⟩

section
variable {S : Names} {x y : Name}

theorem matchKey_def (S : Names) (x : Name) :
    matchKey S x = trim (· = '-') (dashed false (canonicalModelID S x)) := rfl

@[simp]
theorem canonicalModelID_canonicalModelID (S : Names) (x : Name) :
    canonicalModelID S (canonicalModelID S x) = canonicalModelID S x := S.canonical_idem x

@[simp]
theorem canonicalModelID_trimSpace (S : Names) (x : Name) :
    canonicalModelID S (S.trimSpace x) = canonicalModelID S x := by
  rw [canonicalModelID, canonicalModelID, S.trimSpace_trimSpace]

@[simp]
theorem matchKey_canonicalModelID (S : Names) (x : Name) :
    matchKey S (canonicalModelID S x) = matchKey S x := by
  rw [matchKey_def, matchKey_def, canonicalModelID_canonicalModelID]

@[simp]
theorem matchKey_trimSpace (S : Names) (x : Name) : matchKey S (S.trimSpace x) = matchKey S x := by
  rw [matchKey_def, matchKey_def, canonicalModelID_trimSpace]

theorem canonicalModelID_eq_nil : canonicalModelID S x = [] ↔ S.trimSpace x = [] :=
  S.toLower_eq_nil _

theorem canonicalModelID_ne_nil (h : matchKey S x ≠ []) : canonicalModelID S x ≠ [] := by
  intro hnil
  rw [matchKey_def, hnil] at h
  exact h rfl

/-- A key without white space at its ends is its own key. -/
theorem matchKey_matchKey (h : canonicalModelID S (matchKey S x) = matchKey S x) :
    matchKey S (matchKey S x) = matchKey S x := by
  have hcollapsed : Collapsed (matchKey S x) :=
    (collapsed_dashed false (canonicalModelID S x)).1.mono (trim_isInfix _ _)
  rw [matchKey_def S (matchKey S x), h, hcollapsed.dashed_eq false (by simp), matchKey_def,
    trim_trim]

end

/-- The first name of a list in byte order. -/
def Least (l : List Name) (x : Name) : Prop := x ∈ l ∧ ∀ y ∈ l, x ≤ y

theorem pairwise_sorted (l : List Name) : (sorted l).Pairwise (· ≤ ·) :=
  pairwise_insertionSort _ l

variable {x : Name} {p : Name → Bool} {l : List Name}

theorem mem_sorted : x ∈ sorted l ↔ x ∈ l :=
  mem_insertionSort _

theorem least_of_find? (h : (sorted l).find? p = some x) : Least (l.filter p) x := by
  obtain ⟨hx, hp, hle⟩ := Best.find?_least (pairwise_sorted l) (fun a => le_refl a) h
  refine ⟨mem_filter.mpr ⟨mem_sorted.mp hx, hp⟩, fun y hy => ?_⟩
  obtain ⟨hy, hpy⟩ := mem_filter.mp hy
  exact hle y (mem_sorted.mpr hy) hpy

theorem filter_of_find?_none (h : (sorted l).find? p = none) : l.filter p = [] := by
  rw [filter_eq_nil_iff]
  exact fun x hx => find?_eq_none.mp h x (mem_sorted.mpr hx)

theorem Least.unique {y : Name} (hx : Least l x) (hy : Least l y) : x = y :=
  le_antisymm (hx.2 y hy.1) (hy.2 x hx.1)

section
variable {S : Names} {m : Name} {format : RequestFormat}

theorem foldl_addModel (hm : m ≠ []) (l : List Name) (ids : Name → Option Name) :
    l.foldl (addModel S) ids m =
      (ids m).or ((l.find? (matchKey S · = m)).map S.trimSpace) := by
  have hkey : (fun raw => decide (canonicalModelID S raw ≠ []) &&
      decide (matchKey S (canonicalModelID S raw) = m)) = (matchKey S · = m) := by
    funext raw
    by_cases h : matchKey S raw = m
    · simp [canonicalModelID_ne_nil (h ▸ hm)]
    · simp [h]
  have hfold := @Update.foldl_addNew Name Name Name _
    (fun raw => matchKey S (canonicalModelID S raw)) S.trimSpace
    (fun raw => canonicalModelID S raw ≠ []) l ids m
  simp only [decide_eq_true_eq, hkey] at hfold
  exact hfold

theorem modelIDs_eq (S : Names) (member : Member) (hm : m ≠ []) :
    (newUpstreamSnapshot S member).modelIDs m =
      (((sorted member.upstream.models).find? (matchKey S · = m)).or
        ((sorted member.upstream.formatModels).find? (matchKey S · = m))).map S.trimSpace := by
  simp [newUpstreamSnapshot, foldl_addModel hm, Option.map_or]

theorem foldl_addModelFormat (hm : m ≠ []) (l : List (Name × RequestFormat))
    (ids : Name × RequestFormat → Option Name) :
    l.foldl (addModelFormat S) ids (m, format) =
      (ids (m, format)).or
        ((l.find? fun e => matchKey S e.1 = m ∧ e.2 = format).map fun e => S.trimSpace e.1) := by
  have hkey : (fun e : Name × RequestFormat => decide (canonicalModelID S e.1 ≠ []) &&
      decide ((matchKey S (canonicalModelID S e.1), e.2) = (m, format))) =
      fun e => decide (matchKey S e.1 = m ∧ e.2 = format) := by
    funext e
    by_cases h : matchKey S e.1 = m
    · simp [canonicalModelID_ne_nil (h ▸ hm)]
    · simp [h]
  have hfold := @Update.foldl_addNew (Name × RequestFormat) (Name × RequestFormat) Name _
    (fun e => (matchKey S (canonicalModelID S e.1), e.2)) (fun e => S.trimSpace e.1)
    (fun e => canonicalModelID S e.1 ≠ []) l ids (m, format)
  simp only [decide_eq_true_eq, hkey] at hfold
  exact hfold

theorem formatModelIDs_eq (S : Names) (member : Member) (hm : m ≠ []) :
    (newUpstreamSnapshot S member).formatModelIDs (m, format) =
      ((sorted member.upstream.formatModels).find? fun raw =>
        matchKey S raw = m ∧ format ∈ member.upstream.formatsOf raw).map S.trimSpace := by
  simp only [newUpstreamSnapshot, ← foldl_flatMap, foldl_addModelFormat hm, Option.none_or]
  induction sorted member.upstream.formatModels with
  | nil => rfl
  | cons raw l ih =>
    rw [flatMap_cons, find?_append, find?_cons]
    rcases hfind : ((member.upstream.formatsOf raw).map fun format => (raw, format)).find?
        (fun e => matchKey S e.1 = m ∧ e.2 = format) with _ | e
    · have hraw : ¬(matchKey S raw = m ∧ format ∈ member.upstream.formatsOf raw) :=
        fun h => find?_eq_none.mp hfind (raw, format) (mem_map_of_mem h.2) (by simp [h.1])
      rw [hfind, Option.none_or, decide_eq_false hraw, ih]
    · obtain ⟨f, hf, rfl⟩ := mem_map.mp (mem_of_find?_eq_some hfind)
      obtain ⟨hm, rfl⟩ : matchKey S raw = m ∧ f = format := by simpa using find?_some hfind
      rw [hfind, decide_eq_true ⟨hm, hf⟩]
      rfl

end

section
variable (S : Names)

/-- The ids among which a member's maps choose for a key: those recorded for the format, or else
those of the catalogue, or else those of any probe. -/
def rivals (u : Upstream) (format : RequestFormat) (m : Name) : List Name :=
  let recorded := u.formatModels.filter fun raw => matchKey S raw = m ∧ format ∈ u.formatsOf raw
  let listed := u.models.filter (matchKey S · = m)
  if recorded ≠ [] then recorded
  else if listed ≠ [] then listed
  else u.formatModels.filter (matchKey S · = m)

/-- The ids that a provider advertises, without white space at their ends. -/
def spellings (u : Upstream) : List Name := (u.models ++ u.formatModels).map S.trimSpace

/-- An id without a record of its own is advertised for the Chat format. -/
def AdvertisesFor (u : Upstream) (format : RequestFormat) (spelling : Name) : Prop :=
  (∃ raw ∈ u.formatModels, S.trimSpace raw = spelling ∧ format ∈ u.formatsOf raw) ∨
    format = .openaiChat ∧ (∃ raw ∈ u.models, S.trimSpace raw = spelling) ∧
      ∀ raw ∈ u.formatModels, S.trimSpace raw ≠ spelling

variable {S} {u : Upstream} {m x requested : Name} {format : RequestFormat} {member : Member}

theorem mem_of_mem_rivals (h : x ∈ rivals S u format m) :
    x ∈ u.models ++ u.formatModels ∧ matchKey S x = m := by
  rw [mem_append]
  simp only [rivals] at h
  split_ifs at h <;> simp_all

theorem AdvertisesFor.mem_spellings (h : AdvertisesFor S u format x) : x ∈ spellings S u := by
  rw [spellings, mem_map]
  rcases h with ⟨raw, hraw, rfl, -⟩ | ⟨-, ⟨raw, hraw, rfl⟩, -⟩
  · exact ⟨raw, mem_append_right _ hraw, rfl⟩
  · exact ⟨raw, mem_append_left _ hraw, rfl⟩

theorem trimSpace_ne_nil (h : matchKey S x ≠ []) : S.trimSpace x ≠ [] :=
  fun hnil => canonicalModelID_ne_nil h (canonicalModelID_eq_nil.mpr hnil)

/-- The maps have the first id in byte order among the rivals. -/
theorem rawModelFor_least (hm : m ≠ []) (hself : matchKey S m = m)
    (hrivals : rivals S member.upstream format m ≠ []) :
    ∃ x, Least (rivals S member.upstream format m) x ∧
      rawModelFor S (newUpstreamSnapshot S member) m format requested = S.trimSpace x := by
  simp only [rawModelFor, hself, formatModelIDs_eq S member hm, modelIDs_eq S member hm]
  simp only [rivals] at hrivals ⊢
  rcases hrecorded : (sorted member.upstream.formatModels).find? fun raw =>
      matchKey S raw = m ∧ format ∈ member.upstream.formatsOf raw with _ | x
  · rw [if_neg (not_not.mpr (filter_of_find?_none hrecorded))] at hrivals ⊢
    rcases hlisted : (sorted member.upstream.models).find? (matchKey S · = m) with _ | x
    · rw [if_neg (not_not.mpr (filter_of_find?_none hlisted))] at hrivals ⊢
      rcases hprobed : (sorted member.upstream.formatModels).find? (matchKey S · = m) with _ | x
      · exact absurd (filter_of_find?_none hprobed) hrivals
      · have hkey : matchKey S x = m := by simpa using find?_some hprobed
        exact ⟨x, least_of_find? hprobed, by simp [Option.filter, trimSpace_ne_nil (hkey ▸ hm)]⟩
    · have hleast := least_of_find? hlisted
      have hkey : matchKey S x = m := by simpa using find?_some hlisted
      rw [if_pos (ne_nil_of_mem hleast.1)]
      exact ⟨x, hleast, by simp [Option.filter, trimSpace_ne_nil (hkey ▸ hm)]⟩
  · have hleast := least_of_find? hrecorded
    have hkey := find?_some hrecorded
    simp only [decide_eq_true_eq] at hkey
    rw [if_pos (ne_nil_of_mem hleast.1)]
    exact ⟨x, hleast, by simp [Option.filter, trimSpace_ne_nil (hkey.1 ▸ hm)]⟩

theorem rivals_ne_nil (h : ∃ raw ∈ u.models ++ u.formatModels, matchKey S raw = m) :
    rivals S u format m ≠ [] := by
  obtain ⟨raw, hraw, hkey⟩ := h
  simp only [rivals]
  split
  · assumption
  split
  · assumption
  next hlisted =>
    rcases mem_append.mp hraw with hraw | hraw
    · exact absurd (ne_nil_of_mem (mem_filter.mpr ⟨hraw, by simp [hkey]⟩)) hlisted
    · exact ne_nil_of_mem (mem_filter.mpr ⟨hraw, by simp [hkey]⟩)

theorem mem_of_supports (h : upstreamSupportsModel S u m = true)
    (hchecked : u.modelsCheckedAt.isSome) :
    m ≠ [] ∧ ∃ raw ∈ u.models ++ u.formatModels, matchKey S raw = matchKey S m := by
  simp only [upstreamSupportsModel] at h
  split at h
  · simp at h
  rename_i hne
  refine ⟨fun hm => hne ?_, ?_⟩
  · rw [hm, canonicalModelID_eq_nil, S.trimSpace_nil]
  rw [if_neg (by simp [← Option.not_isSome, hchecked]), Bool.or_eq_true, any_eq_true] at h
  simp only [matchKey_canonicalModelID, decide_eq_true_eq] at h
  rcases h with ⟨raw, hraw, hkey⟩ | h
  · exact ⟨raw, mem_append_left _ hraw, hkey⟩
  · simp only [upstreamModelFormats, matchKey_canonicalModelID] at h
    split at h
    · simp at h
    rename_i hfound
    obtain ⟨e, he⟩ := exists_mem_of_ne_nil _ hfound
    obtain ⟨he, hkey⟩ := mem_filter.mp he
    exact ⟨e.1, mem_append_right _ (mem_map_of_mem he), of_decide_eq_true hkey⟩

end

theorem mem_of_mem_buildRoute {candidates seq : List UpstreamSnapshot} {item : UpstreamSnapshot}
    (hseq : seq ∈ buildRoute candidates) (hitem : item ∈ seq) : item ∈ candidates := by
  obtain ⟨hseq, -⟩ := mem_filter.mp hseq
  obtain ⟨priority, -, rfl⟩ := mem_map.mp hseq
  simp only [newUpstreamWeightedSeq, mem_flatMap] at hitem
  obtain ⟨item', hitem', hrep⟩ := hitem
  rw [eq_of_mem_replicate hrep]
  exact (mem_filter.mp hitem').1

theorem mem_of_lookup {κ β : Type} [BEq κ] [LawfulBEq κ] {l : List (κ × β)} {k : κ} {v : β}
    (h : l.lookup k = some v) : (k, v) ∈ l := by
  obtain ⟨before, after, rfl, -⟩ := lookup_eq_some_iff.mp h
  simp

section
variable {S : Names} {pool : List UpstreamSnapshot} {models allowed : List Name} {m : Name}
  {format : RequestFormat} {rt : List (List UpstreamSnapshot)} {item : UpstreamSnapshot}

theorem mem_modelRoutes (h : ((format, m), rt) ∈ modelRoutes S pool models) :
    m ∈ models ∧ rt = buildRoute (upstreamCandidatesForModelFormat S pool m format) := by
  simp only [modelRoutes, mem_flatMap, mem_filterMap] at h
  obtain ⟨model, hmodel, format', -, hroute⟩ := h
  split_ifs at hroute
  simp only [Option.some.injEq] at hroute
  obtain ⟨⟨rfl, rfl⟩, rfl⟩ := hroute
  exact ⟨hmodel, rfl⟩

theorem exists_of_mem_confirmedKeys (h : m ∈ confirmedKeys S models) : ∃ y, m = matchKey S y := by
  obtain ⟨raw, -, rfl⟩ := mem_map.mp h
  exact ⟨_, rfl⟩

theorem exists_of_mem_intersection (h : m ∈ (upstreamModelIntersection S pool).1) :
    ∃ y, m = matchKey S y := by
  simp only [upstreamModelIntersection] at h
  split at h
  · simp at h
  · rw [mem_sorted, mem_dedup, mem_flatMap] at h
    obtain ⟨item, -, hm⟩ := h
    exact (mem_append.mp hm).elim exists_of_mem_confirmedKeys exists_of_mem_confirmedKeys

variable {seq : List UpstreamSnapshot}

/-- A member with a catalogue is on a route only for a model that it supports there; the route of a
pool without catalogues has none. -/
theorem supported_of_routed
    (h : (buildUpstreamRoutes S pool allowed).lookup (format, m) = some rt) (hseq : seq ∈ rt)
    (hitem : item ∈ seq) (henabled : item.enabled)
    (hchecked : item.member.upstream.modelsCheckedAt.isSome) :
    item ∈ pool ∧ (∃ y, m = matchKey S y) ∧
      upstreamSupportsModelFormat S item.member.upstream m format := by
  have hmodel : ∀ models, ((format, m), rt) ∈ modelRoutes S pool models → m ∈ models ∧
      item ∈ pool ∧ upstreamSupportsModelFormat S item.member.upstream m format := by
    intro models hroute
    obtain ⟨hm, rfl⟩ := mem_modelRoutes hroute
    have hcand := mem_filter.mp (mem_of_mem_buildRoute hseq hitem)
    simp only [Bool.and_eq_true] at hcand
    exact ⟨hm, hcand.1, hcand.2.2⟩
  have hmem := mem_of_lookup h
  simp only [buildUpstreamRoutes] at hmem
  split at hmem
  · split at hmem
    next hlegacy =>
      obtain ⟨hkey, rfl⟩ := Prod.mk.inj (mem_singleton.mp hmem)
      have hpool := mem_of_mem_buildRoute hseq hitem
      have hlive : item ∈ (pool.filter (·.enabled)).filter
          (·.member.upstream.modelsCheckedAt.isSome) := by
        simp [hpool, henabled, hchecked]
      simp only [upstreamModelIntersection] at hlegacy
      rw [if_neg fun hempty => ne_nil_of_mem hlive (isEmpty_iff.mp hempty)] at hlegacy
      exact absurd hlegacy (by simp)
    · obtain ⟨hm, hpool, hsupports⟩ := hmodel _ hmem
      exact ⟨hpool, exists_of_mem_intersection hm, hsupports⟩
  · obtain ⟨hm, hpool, hsupports⟩ := hmodel _ hmem
    rw [mem_sorted, mem_dedup] at hm
    exact ⟨hpool, exists_of_mem_confirmedKeys hm, hsupports⟩

theorem mem_of_scan {visits : Nat → Visit} (h : scan visits seq = some item) :
    item ∈ seq ∧ item.enabled := by
  obtain ⟨i, -, hi⟩ := exists_of_findSome?_eq_some h
  obtain ⟨hget, hkeep⟩ := Option.filter_eq_some_iff.mp hi
  simp only [Bool.and_eq_true] at hkeep
  exact ⟨mem_of_getElem? hget, hkeep.1⟩

theorem selectUpstream_ok {gs : GroupSnapshot} {model requested : Name}
    {visits : Nat → Nat → Visit} {sel : Selection}
    (h : selectUpstream S gs format model requested visits = .ok sel) :
    ∃ rt, (gs.upstreamRoutes.lookup (format, canonicalModelID S model) = some rt ∨
        gs.upstreamRoutes.lookup (format, []) = some rt) ∧
      (∃ seq ∈ rt, sel.upstreamRef ∈ seq) ∧ sel.upstreamRef.enabled ∧
      sel.model = rawModelFor S sel.upstreamRef (canonicalModelID S model) format requested := by
  simp only [selectUpstream] at h
  split at h
  · simp at h
  · simp at h
  next rt _ hroute =>
    split at h
    · simp at h
    next item hitem =>
      obtain ⟨⟨seq, q⟩, hseq, hscan⟩ := exists_of_findSome?_eq_some hitem
      cases h
      have hmem := mem_of_scan hscan
      refine ⟨rt, ?_, ⟨seq, fst_mem_of_mem_zipIdx hseq, hmem.1⟩, hmem.2, rfl⟩
      rcases hlookup : gs.upstreamRoutes.lookup (format, canonicalModelID S model) with _ | rt'
      · simpa [hlookup] using hroute
      · simp only [hlookup] at hroute
        exact .inl hroute

end

/-- A name up to its separators. -/
def separated (name : Name) : Name := trim (· = '-') (dashed false name)

section
variable (S : Names)

/-- What a client may expect of the model that a member with a catalogue gets for its request. -/
structure Served (u : Upstream) (format : RequestFormat) (requested model : Name) : Prop where
  advertised : model ∈ spellings S u
  sameKey : matchKey S model = matchKey S requested
  exactly : AdvertisesFor S u format (S.trimSpace requested) → model = S.trimSpace requested
  distinct : S.trimSpace requested ∈ spellings S u →
    separated model = separated (S.trimSpace requested) → model = S.trimSpace requested

/-- The request is routed by its own key, and if the member advertises the requested spelling, no
rival comes before it, or the first rival is the same model in another case. -/
structure Unshadowed (gs : GroupSnapshot) (u : Upstream) (format : RequestFormat)
    (requested : Name) : Prop where
  routed : gs.routed format (matchKey S requested)
  canonical : canonicalModelID S (matchKey S requested) = matchKey S requested
  foremost : S.trimSpace requested ∈ spellings S u →
    ∃ x, Least (rivals S u format (matchKey S requested)) x ∧
      (S.trimSpace x = S.trimSpace requested ∨ ¬AdvertisesFor S u format (S.trimSpace requested) ∧
        separated (S.trimSpace x) ≠ separated (S.trimSpace requested))

variable {S} {members : List Member} {allowed : List Name}
  {modelAliases : RequestFormat → Name → Option Name} {gs : GroupSnapshot}
  {format : RequestFormat} {requested model : Name} {visits : Nat → Nat → Visit} {sel : Selection}

/-- A selection of a member with a catalogue comes from the route of its own model, never from the
route for all models. -/
theorem selected_supported
    (hsel : selectUpstream S (newGroupSnapshot S members allowed modelAliases) format model
      requested visits = .ok sel)
    (hchecked : sel.upstreamRef.member.upstream.modelsCheckedAt.isSome) :
    (newGroupSnapshot S members allowed modelAliases).routed format (canonicalModelID S model) ∧
      matchKey S (canonicalModelID S model) = canonicalModelID S model ∧
      ∃ x, Least (rivals S sel.upstreamRef.member.upstream format (canonicalModelID S model)) x ∧
        sel.model = S.trimSpace x := by
  obtain ⟨rt, hroute, ⟨seq, hseq, hitem⟩, henabled, hmodel⟩ := selectUpstream_ok hsel
  have hown : (newGroupSnapshot S members allowed modelAliases).upstreamRoutes.lookup
      (format, canonicalModelID S model) = some rt := by
    refine hroute.resolve_right fun hdefault => ?_
    obtain ⟨-, -, hsupports⟩ := supported_of_routed hdefault hseq hitem henabled hchecked
    simp only [upstreamSupportsModelFormat, Bool.and_eq_true] at hsupports
    exact absurd (canonicalModelID_eq_nil.mpr S.trimSpace_nil)
      (mem_of_supports hsupports.1 hchecked).1
  obtain ⟨hpool, ⟨y, hy⟩, hsupports⟩ := supported_of_routed hown hseq hitem henabled hchecked
  obtain ⟨member, -, hmember⟩ := mem_map.mp hpool
  have hself : matchKey S (canonicalModelID S model) = canonicalModelID S model := by
    rw [hy]
    exact matchKey_matchKey (by rw [← hy, canonicalModelID_canonicalModelID])
  simp only [upstreamSupportsModelFormat, Bool.and_eq_true,
    canonicalModelID_canonicalModelID] at hsupports
  obtain ⟨hne, hmem⟩ := mem_of_supports hsupports.1 hchecked
  refine ⟨by rw [GroupSnapshot.routed, hown]; rfl, hself, ?_⟩
  rw [hself] at hmem
  rw [← hmember] at hmem
  rw [hmodel, ← hmember]
  exact rawModelFor_least hne hself (rivals_ne_nil hmem)

theorem resolved_key_iff
    (hrouted : gs.routed format (canonicalModelID S (resolveGroupModel S gs format requested)))
    (hself : matchKey S (canonicalModelID S (resolveGroupModel S gs format requested)) =
      canonicalModelID S (resolveGroupModel S gs format requested)) :
    canonicalModelID S (resolveGroupModel S gs format requested) = matchKey S requested ↔
      gs.routed format (matchKey S requested) ∧
        canonicalModelID S (matchKey S requested) = matchKey S requested := by
  constructor
  · intro h
    exact ⟨h ▸ hrouted, by rw [← h, canonicalModelID_canonicalModelID]⟩
  · rintro ⟨hkey, hcanonical⟩
    by_cases hdirect : gs.routed format (canonicalModelID S requested) = true
    · have hresolve : resolveGroupModel S gs format requested = canonicalModelID S requested := by
        simp [resolveGroupModel, hdirect]
      rw [hresolve, canonicalModelID_canonicalModelID, matchKey_canonicalModelID] at hself
      rw [hresolve, canonicalModelID_canonicalModelID, hself]
    · have hresolve : resolveGroupModel S gs format requested = matchKey S requested := by
        simp [resolveGroupModel, hdirect, hkey]
      rw [hresolve, hcanonical]

/-- A member with a catalogue gets the requested model exactly if no other one shadows it. -/
theorem served_iff_unshadowed
    (hsel : selectExcluding S (newGroupSnapshot S members allowed modelAliases) format requested
      visits = .ok sel)
    (hchecked : sel.upstreamRef.member.upstream.modelsCheckedAt.isSome) :
    Served S sel.upstreamRef.member.upstream format requested sel.model ↔
      Unshadowed S (newGroupSnapshot S members allowed modelAliases)
        sel.upstreamRef.member.upstream format requested := by
  obtain ⟨hrouted, hself, x, hx, hmodel⟩ := selected_supported hsel hchecked
  obtain ⟨hmem, hkey⟩ := mem_of_mem_rivals hx.1
  have hiff := resolved_key_iff hrouted hself
  rw [hmodel]
  constructor
  · rintro ⟨-, hsame, hexact, hdistinct⟩
    rw [matchKey_trimSpace, hkey] at hsame
    obtain ⟨hroutedKey, hcanonical⟩ := hiff.mp hsame
    refine ⟨hroutedKey, hcanonical, fun hspelled => ⟨x, hsame ▸ hx, ?_⟩⟩
    by_cases hfirst : S.trimSpace x = S.trimSpace requested
    · exact .inl hfirst
    · exact .inr ⟨fun h => hfirst (hexact h), fun h => hfirst (hdistinct hspelled h)⟩
  · rintro ⟨hroutedKey, hcanonical, hforemost⟩
    have hsame := hiff.mpr ⟨hroutedKey, hcanonical⟩
    rw [hsame] at hx
    refine ⟨mem_map_of_mem hmem, ?_, fun h => ?_, fun hspelled h => ?_⟩
    · rw [matchKey_trimSpace, hkey, hsame]
    · obtain ⟨x', hx', hfirst⟩ := hforemost h.mem_spellings
      exact hx.unique hx' ▸ hfirst.resolve_right fun hother => hother.1 h
    · obtain ⟨x', hx', hfirst⟩ := hforemost hspelled
      obtain rfl := hx.unique hx'
      exact hfirst.resolve_right fun hother => hother.2 h

end

/-- ASCII names. -/
def asciiNames : Names where
  toStrings := Strings.ascii
  canonical_idem s := by
    show (Text.trim isSpace ((Text.trim isSpace s).map Char.toLower)).map Char.toLower =
      (Text.trim isSpace s).map Char.toLower
    rw [trim_map _ _ isSpace_toLower, trim_trim, map_map]
    exact map_congr_left fun c _ => toLower_toLower c
  toLower_eq_nil _ := map_eq_nil_iff
  trimSpace_nil := rfl

def provider (models : List String) : Member where
  id := 7
  upstream :=
    { models := models.map String.toList
      modelFormats := []
      modelsCheckedAt := some 0
      nodup_formats := nodup_nil }

def poolOf (models : List String) : GroupSnapshot :=
  newGroupSnapshot asciiNames [provider models] [] fun _ _ => none

theorem served_in_own_case :
    ∃ sel, selectExcluding asciiNames (poolOf ["GPT-4.1", "gpt-4o"]) .openaiChat "gpt_4.1".toList
        (fun _ _ => ⟨1, true⟩) = .ok sel ∧ sel.model = "GPT-4.1".toList ∧
      Served asciiNames sel.upstreamRef.member.upstream .openaiChat "gpt_4.1".toList sel.model := by
  have hsel : selectExcluding asciiNames (poolOf ["GPT-4.1", "gpt-4o"]) .openaiChat "gpt_4.1".toList
      (fun _ _ => ⟨1, true⟩) = .ok ⟨newUpstreamSnapshot asciiNames (provider ["GPT-4.1", "gpt-4o"]),
        "GPT-4.1".toList, "gpt-4-1".toList⟩ := by rfl
  refine ⟨_, hsel, rfl, (served_iff_unshadowed hsel rfl).mpr ⟨?_, ?_, fun h => absurd h ?_⟩⟩
  · decide +kernel
  · decide +kernel
  · decide +kernel

/-- A dash sorts before a dot, so the other model of the key is sent. -/
theorem sibling_served_instead :
    ((selectExcluding asciiNames (poolOf ["gpt-4.1", "gpt-4-1"]) .openaiChat "gpt-4.1".toList
        fun _ _ => ⟨1, true⟩).toOption.map (·.model)) = some "gpt-4-1".toList ∧
      AdvertisesFor asciiNames (provider ["gpt-4.1", "gpt-4-1"]).upstream .openaiChat
        "gpt-4.1".toList := by
  refine ⟨by decide +kernel, .inr ⟨rfl, ⟨_, mem_cons_self, by decide +kernel⟩, ?_⟩⟩
  exact fun raw h => absurd h (by simp [Upstream.formatModels, provider])

end C4Gateway.Catalogue
