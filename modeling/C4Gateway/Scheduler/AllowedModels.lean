import C4Gateway.Scheduler.Catalogue

/-! The check of a group's allow list against the catalogues of its upstreams, and the routes that
the scheduler builds for the same list. -/

namespace C4Gateway.Catalogue

open List

open Pricing (dashed)
open Text

section
variable (S : Names)

def canonicalUpstreamModelID (model : Name) : Name :=
  let model := S.toLower (S.trimSpace model)
  if model = [] then [] else trim (· = '-') (dashed false model)

def modelFormatsForID (all : List (Name × List RequestFormat)) (model : Name) :
    Option (List RequestFormat) :=
  match all.filter fun e => canonicalUpstreamModelID S e.1 = model with
  | [] => none
  | found => some (found.flatMap (·.2)).dedup

/-- A format of the model is always a valid one. -/
def hasValidModelFormat (formats : List RequestFormat) : Bool := !formats.isEmpty

/-- The arguments of `markCovered` for an upstream with a catalogue. -/
def markedModels (u : Upstream) : List Name :=
  (if u.modelFormats.isEmpty then u.models
    else (u.models.map (canonicalUpstreamModelID S)).filter fun model =>
      (modelFormatsForID S u.modelFormats model).all hasValidModelFormat) ++
    (u.modelFormats.filter fun e => hasValidModelFormat e.2).map (·.1)

/-- Whether the upstream has the model, as far as it was ever asked. -/
def covers (u : Upstream) (model : Name) : Bool :=
  u.modelsCheckedAt.isNone ||
    (markedModels S u).any fun raw => canonicalUpstreamModelID S raw = model

/-- Whether the list is accepted. -/
def validateAllowedModelsForUpstreams (allowed : List Name) (members : List Member) : Bool :=
  ((allowed.map (canonicalUpstreamModelID S)).filter (· ≠ [])).all fun model =>
    members.any fun member => covers S member.upstream model

variable {S} {u : Upstream} {m : Name} {format : RequestFormat}

theorem canonicalUpstreamModelID_eq (S : Names) (model : Name) :
    canonicalUpstreamModelID S model = matchKey S model := by
  rw [matchKey_def, canonicalUpstreamModelID]
  simp only [canonicalModelID]
  split
  · next h =>
    rw [h]
    rfl
  · rfl

theorem upstreamModelFormats_eq (S : Names) (all : List (Name × List RequestFormat)) (x : Name) :
    upstreamModelFormats S all x = modelFormatsForID S all (matchKey S x) := by
  simp only [modelFormatsForID, canonicalUpstreamModelID_eq]
  rfl

/-- A model is recorded with some format, or not at all. -/
theorem modelFormatsForID_cases (S : Names) (all : List (Name × List RequestFormat)) (m : Name) :
    (modelFormatsForID S all m = none ∧ ∀ e ∈ all, matchKey S e.1 ≠ m) ∨
      ∃ formats, modelFormatsForID S all m = some formats ∧
        ∀ format, format ∈ formats ↔ ∃ e ∈ all, matchKey S e.1 = m ∧ format ∈ e.2 := by
  unfold modelFormatsForID
  split
  · next h =>
    left
    simpa [canonicalUpstreamModelID_eq] using h
  · right
    refine ⟨_, rfl, fun format => ?_⟩
    simp [canonicalUpstreamModelID_eq, and_assoc]

/-- What the scheduler goes by: the model is recorded with some format, or listed without a
record. -/
def Routable (S : Names) (u : Upstream) (m : Name) : Prop :=
  match modelFormatsForID S u.modelFormats m with
  | none => ∃ c ∈ u.models, matchKey S c = m
  | some formats => formats ≠ []

theorem supports_iff_routable (hm : m ≠ []) (hcanonical : canonicalModelID S m = m)
    (hself : matchKey S m = m) (hchecked : u.modelsCheckedAt.isSome) :
    (∃ format, upstreamSupportsModelFormat S u m format = true) ↔ Routable S u m := by
  have hunchecked : u.modelsCheckedAt.isNone = false := by simp [hchecked]
  simp only [upstreamSupportsModelFormat, upstreamSupportsModel, hcanonical, if_neg hm, hunchecked,
    upstreamModelFormats_eq, hself, Routable]
  cases modelFormatsForID S u.modelFormats m with
  | none => simp
  | some formats => simp [← length_pos_iff, length_pos_iff_exists_mem]

/-- What the check accepts besides: where formats are recorded, it takes the key of a listed id and
marks the key of that. -/
def Rekeyed (S : Names) (u : Upstream) (m : Name) : Prop :=
  u.modelFormats ≠ [] ∧ ∃ c ∈ u.models, matchKey S (matchKey S c) = m ∧
    (modelFormatsForID S u.modelFormats (matchKey S c)).all hasValidModelFormat

/-- Some entry of the record gives the model a format. -/
def Recorded (S : Names) (u : Upstream) (m : Name) : Prop :=
  ∃ e ∈ u.modelFormats, matchKey S e.1 = m ∧ e.2 ≠ []

theorem covers_iff_rekeyed (hchecked : u.modelsCheckedAt.isSome) (hformats : u.modelFormats ≠ []) :
    covers S u m = true ↔ Rekeyed S u m ∨ Recorded S u m := by
  have hunchecked : u.modelsCheckedAt.isNone = false := by simp [hchecked]
  simp only [covers, hunchecked, Bool.false_or, any_eq_true, decide_eq_true_eq, markedModels,
    List.isEmpty_iff, hformats, if_false, canonicalUpstreamModelID_eq, mem_append, or_and_right,
    exists_or, List.mem_map, List.mem_filter, Rekeyed, Recorded, hasValidModelFormat]
  refine or_congr ?_ ?_
  · constructor
    · rintro ⟨_, ⟨⟨c, hc, rfl⟩, hvalid⟩, hkey⟩
      exact ⟨hformats, c, hc, hkey, hvalid⟩
    · rintro ⟨-, c, hc, hkey, hvalid⟩
      exact ⟨_, ⟨⟨c, hc, rfl⟩, hvalid⟩, hkey⟩
  · constructor
    · rintro ⟨_, ⟨e, ⟨he, hne⟩, rfl⟩, hkey⟩
      exact ⟨e, he, hkey, by simpa using hne⟩
    · rintro ⟨e, he, hkey, hne⟩
      exact ⟨e.1, ⟨e, ⟨he, by simpa using hne⟩, rfl⟩, hkey⟩

theorem routable_iff_recorded {formats : List RequestFormat}
    (h : modelFormatsForID S u.modelFormats m = some formats) :
    Routable S u m ↔ Recorded S u m := by
  rcases modelFormatsForID_cases S u.modelFormats m with ⟨hnone, -⟩ | ⟨_, hsome, hmem⟩
  · simp [hnone] at h
  · rw [Routable, hsome]
    constructor
    · intro hne
      obtain ⟨format, hformat⟩ := exists_mem_of_ne_nil _ hne
      obtain ⟨e, he, hkey, hformat⟩ := (hmem format).mp hformat
      exact ⟨e, he, hkey, ne_nil_of_mem hformat⟩
    · rintro ⟨e, he, hkey, hne⟩
      obtain ⟨format, hformat⟩ := exists_mem_of_ne_nil _ hne
      exact ne_nil_of_mem ((hmem format).mpr ⟨e, he, hkey, hformat⟩)

/-- The check covers what the scheduler can route, and the keys of keys. -/
theorem covers_iff (hchecked : u.modelsCheckedAt.isSome) (hself : matchKey S m = m) :
    covers S u m = true ↔ Routable S u m ∨ Rekeyed S u m := by
  by_cases hformats : u.modelFormats = []
  · have hunchecked : u.modelsCheckedAt.isNone = false := by simp [hchecked]
    simp [covers, hunchecked, markedModels, hformats, Routable, Rekeyed, modelFormatsForID,
      canonicalUpstreamModelID_eq]
  rw [covers_iff_rekeyed hchecked hformats, or_comm]
  cases hlisted : modelFormatsForID S u.modelFormats m with
  | none =>
    -- a listed id without a record is marked by its key, which is its own
    have hrekeyed : Routable S u m → Rekeyed S u m := by
      rw [Routable, hlisted]
      rintro ⟨c, hc, rfl⟩
      exact ⟨hformats, c, hc, hself, by simp [hlisted]⟩
    have hunrecorded : ¬ Recorded S u m := by
      rintro ⟨e, he, hkey, -⟩
      rcases modelFormatsForID_cases S u.modelFormats m with ⟨-, hall⟩ | ⟨_, hsome, -⟩
      · exact hall e he hkey
      · simp [hlisted] at hsome
    exact ⟨fun h => .inr (h.resolve_left hunrecorded), fun h => .inr (h.elim hrekeyed id)⟩
  | some formats => rw [routable_iff_recorded hlisted]

end

theorem buildRoute_ne_nil_iff {candidates : List UpstreamSnapshot} :
    buildRoute candidates ≠ [] ↔ candidates ≠ [] := by
  constructor
  · intro h
    obtain ⟨seq, hseq⟩ := exists_mem_of_ne_nil _ h
    obtain ⟨-, hne⟩ := List.mem_filter.mp hseq
    obtain ⟨item, hitem⟩ := exists_mem_of_ne_nil seq (by simpa using hne)
    exact ne_nil_of_mem (mem_of_mem_buildRoute hseq hitem)
  · intro h
    obtain ⟨item, hitem⟩ := exists_mem_of_ne_nil _ h
    have hseq : item ∈ newUpstreamWeightedSeq
        (candidates.filter (·.member.priority = item.member.priority)) := by
      rw [newUpstreamWeightedSeq, mem_flatMap]
      exact ⟨item, List.mem_filter.mpr ⟨hitem, by simp⟩, mem_replicate.mpr ⟨by omega, rfl⟩⟩
    refine ne_nil_of_mem (List.mem_filter.mpr ⟨List.mem_map.mpr ⟨_, ?_, rfl⟩,
      by simpa using ne_nil_of_mem hseq⟩)
    rw [mem_insertionSort, mem_dedup]
    exact mem_map_of_mem hitem

theorem mem_formats (format : RequestFormat) : format ∈ formats := by
  cases format <;> decide

/-- A model of the list has a route of some format exactly if a live member supports it. -/
theorem routed_iff {S : Names} {pool : List UpstreamSnapshot} {models : List Name} {m : Name}
    {format : RequestFormat} (hm : m ∈ models) :
    (∃ rt, (modelRoutes S pool models).lookup (format, m) = some rt ∧ rt ≠ []) ↔
      ∃ item ∈ pool, item.enabled ∧
        upstreamSupportsModelFormat S item.member.upstream m format := by
  have hcandidates : upstreamCandidatesForModelFormat S pool m format ≠ [] ↔
      ∃ item ∈ pool, item.enabled ∧
        upstreamSupportsModelFormat S item.member.upstream m format := by
    simp [upstreamCandidatesForModelFormat]
  rw [← hcandidates]
  constructor
  · rintro ⟨rt, hrt, hne⟩
    obtain ⟨-, rfl⟩ := mem_modelRoutes (mem_of_lookup hrt)
    exact buildRoute_ne_nil_iff.mp hne
  · intro hne
    have hmem : ((format, m), buildRoute (upstreamCandidatesForModelFormat S pool m format)) ∈
        modelRoutes S pool models := by
      simp only [modelRoutes, mem_flatMap, mem_filterMap]
      exact ⟨m, hm, format, mem_formats format, by simp [hne]⟩
    cases hrt : (modelRoutes S pool models).lookup (format, m) with
    | none =>
      rw [lookup_eq_none_iff] at hrt
      simpa using hrt _ hmem
    | some rt =>
      obtain ⟨-, rfl⟩ := mem_modelRoutes (mem_of_lookup hrt)
      exact ⟨_, rfl, buildRoute_ne_nil_iff.mpr hne⟩

theorem mem_allowed_keys {S : Names} {allowed : List Name} {model : Name} (hmodel : model ∈ allowed)
    (hkey : matchKey S model ≠ []) :
    matchKey S model ∈ sorted (confirmedKeys S allowed).dedup := by
  rw [mem_sorted, mem_dedup, confirmedKeys, List.mem_map]
  exact ⟨model, List.mem_filter.mpr ⟨hmodel, by simpa using canonicalModelID_ne_nil hkey⟩,
    matchKey_canonicalModelID S model⟩

section
variable (S : Names) (members : List Member) (allowed : List Name)

/-- Every model of the list has a route of some format. -/
def AllRouted : Prop :=
  ∀ model ∈ allowed, ∃ format rt,
    (buildUpstreamRoutes S (members.map (newUpstreamSnapshot S)) allowed).lookup
      (format, matchKey S model) = some rt ∧ rt ≠ []

variable (hne : allowed ≠ [])
  (hallowed : ∀ model ∈ allowed, matchKey S model ≠ [] ∧
    canonicalModelID S (matchKey S model) = matchKey S model)
  (hmembers : ∀ member ∈ members, member.enabled ∧ member.upstream.enabled ∧
    member.upstream.modelsCheckedAt.isSome)
include hallowed hmembers

theorem validateAllowed_iff :
    validateAllowedModelsForUpstreams S allowed members = true ↔
      ∀ model ∈ allowed, ∃ member ∈ members, Routable S member.upstream (matchKey S model) ∨
        Rekeyed S member.upstream (matchKey S model) := by
  simp only [validateAllowedModelsForUpstreams, all_eq_true, List.mem_filter, List.mem_map,
    canonicalUpstreamModelID_eq, any_eq_true, and_imp, forall_exists_index,
    forall_apply_eq_imp_iff₂, decide_eq_true_eq]
  refine forall₂_congr fun model hmodel => ?_
  obtain ⟨hkey, hcanonical⟩ := hallowed model hmodel
  refine ⟨fun h => ?_, fun h _ => ?_⟩
  · obtain ⟨member, hmember, hcovers⟩ := h hkey
    exact ⟨member, hmember, (covers_iff (hmembers member hmember).2.2
      (matchKey_matchKey hcanonical)).mp hcovers⟩
  · obtain ⟨member, hmember, hroutable⟩ := h
    exact ⟨member, hmember, (covers_iff (hmembers member hmember).2.2
      (matchKey_matchKey hcanonical)).mpr hroutable⟩

include hne

theorem allRouted_iff :
    AllRouted S members allowed ↔ ∀ model ∈ allowed,
      ∃ member ∈ members, Routable S member.upstream (matchKey S model) := by
  rw [AllRouted, buildUpstreamRoutes, if_neg (by simpa using hne)]
  refine forall₂_congr fun model hmodel => ?_
  obtain ⟨hkey, hcanonical⟩ := hallowed model hmodel
  simp only [routed_iff (mem_allowed_keys hmodel hkey), List.mem_map, exists_exists_and_eq_and]
  rw [exists_comm]
  refine exists_congr fun member => ?_
  rw [exists_and_left]
  refine and_congr_right fun hmember => ?_
  obtain ⟨henabled, hlive, hchecked⟩ := hmembers member hmember
  rw [← supports_iff_routable hkey hcanonical (matchKey_matchKey hcanonical) hchecked]
  simp [newUpstreamSnapshot, UpstreamSnapshot.enabled, henabled, hlive]

/-- The check accepts an allow list exactly if the scheduler routes each of its models in some
format, unless the list only goes through because of a model that is the key of a listed id's key
and that no member can route. -/
theorem allowed_iff_routed :
    (validateAllowedModelsForUpstreams S allowed members = true ↔ AllRouted S members allowed) ↔
      (∀ model ∈ allowed, (∃ member ∈ members, Rekeyed S member.upstream (matchKey S model)) →
        ∃ member ∈ members, Routable S member.upstream (matchKey S model)) ∨
      ∃ model ∈ allowed, ∀ member ∈ members, ¬ Routable S member.upstream (matchKey S model) ∧
        ¬ Rekeyed S member.upstream (matchKey S model) := by
  rw [validateAllowed_iff S members allowed hallowed hmembers,
    allRouted_iff S members allowed hne hallowed hmembers]
  constructor
  · intro h
    by_cases hall : ∀ model ∈ allowed, ∃ member ∈ members,
        Routable S member.upstream (matchKey S model) ∨
          Rekeyed S member.upstream (matchKey S model)
    · exact .inl fun model hmodel _ => h.mp hall model hmodel
    · push Not at hall
      exact .inr hall
  · rintro (hrekeyed | ⟨model, hmodel, hneither⟩)
    · refine forall₂_congr fun model hmodel => ⟨?_, ?_⟩
      · rintro ⟨member, hmember, hroutable | h⟩
        · exact ⟨member, hmember, hroutable⟩
        · exact hrekeyed model hmodel ⟨member, hmember, h⟩
      · rintro ⟨member, hmember, hroutable⟩
        exact ⟨member, hmember, .inl hroutable⟩
    · refine iff_of_false (fun h => ?_) fun h => ?_
      · obtain ⟨member, hmember, hcovers⟩ := h model hmodel
        exact hcovers.elim (hneither member hmember).1 (hneither member hmember).2
      · obtain ⟨member, hmember, hroutable⟩ := h model hmodel
        exact (hneither member hmember).1 hroutable

end

/-- A catalogue with one listed id and a record of the format Chat for another one. -/
def probed (listed recorded : String) : Member where
  id := 7
  upstream :=
    { models := [listed.toList]
      modelFormats := [(recorded.toList, [.openaiChat])]
      modelsCheckedAt := some 0
      nodup_formats := nodup_singleton _ }

/-- The check takes the key of the key, which trims the white space behind a leading dash. -/
theorem allowed_not_routed :
    validateAllowedModelsForUpstreams asciiNames ["gpt".toList] [probed "- gpt" "other"] = true ∧
      buildUpstreamRoutes asciiNames [newUpstreamSnapshot asciiNames (probed "- gpt" "other")]
        ["gpt".toList] = [] := by
  refine ⟨by decide +kernel, ?_⟩
  exact List.isEmpty_iff.mp (by decide +kernel)

theorem allowed_iff_routed_spelled :
    validateAllowedModelsForUpstreams asciiNames ["GPT_4".toList, "other".toList]
        [probed "gpt.4" "other"] = true ∧
      AllRouted asciiNames [probed "gpt.4" "other"] ["GPT_4".toList, "other".toList] := by
  have hvalid : validateAllowedModelsForUpstreams asciiNames ["GPT_4".toList, "other".toList]
      [probed "gpt.4" "other"] = true := by
    decide +kernel
  refine ⟨hvalid, ((allowed_iff_routed asciiNames [probed "gpt.4" "other"] _ (by simp)
    (by decide +kernel) (by simp [probed])).mpr (.inl fun model hmodel _ => ?_)).mp hvalid⟩
  refine ⟨_, mem_singleton_self _, ?_⟩
  rcases mem_pair.mp hmodel with rfl | rfl
  · have hnone : modelFormatsForID asciiNames (probed "gpt.4" "other").upstream.modelFormats
        (matchKey asciiNames "GPT_4".toList) = none := by
      decide +kernel
    rw [Routable, hnone]
    exact ⟨_, mem_singleton_self _, by decide +kernel⟩
  · have hsome : modelFormatsForID asciiNames (probed "gpt.4" "other").upstream.modelFormats
        (matchKey asciiNames "other".toList) = some [.openaiChat] := by
      decide +kernel
    rw [Routable, hsome]
    simp

end C4Gateway.Catalogue
