import C4Gateway.Proxy.UsageExtract

/-! A usage object that is read out of a stream and out of a whole response.  The scanner counts a
key as it is written, the other path counts what has the key when it is decoded, and each path has
its own order of names; the two agree if these come to the same. -/

namespace C4Gateway.Proxy

open Option List JsonText Keys

/-! ### What the scanner reads -/

/-- The `int64` that a value is, as a number or as a string. -/
def int64 : Doc → Int
  | .num n => (Text.parseInt64 n.text).getD 0
  | .str token => (Text.parseInt64 (written token)).getD 0
  | _ => 0

theorem parseInt64_of_head {c : Char} (s : List Char) (h : c ≠ '-' ∧ c ≠ '+' ∧ c.isDigit = false) :
    Text.parseInt64 (c :: s) = none := by
  rw [Text.parseInt64.eq_3]
  · simp [Text.wholeNat, h.2.2]
  · exact fun s' hs => h.1 (List.cons.inj hs).1
  · exact fun s' hs => h.2.1 (List.cons.inj hs).1

variable (data : Data) (d u : Doc) (key : List Char)

theorem scanIntValue_text : scanIntValue d.text = int64 d := by
  cases d with
  | null => rfl
  | bool b => cases b <;> rfl
  | num n =>
    obtain ⟨c, s, htext⟩ := exists_cons_of_ne_nil n.text_ne_nil
    have hc : c ≠ '"' := by
      rintro rfl
      exact absurd (n.isNumberChar_text '"' (by simp [htext])) (by decide)
    simp [scanIntValue, Doc.text, int64, htext, hc]
  | str token =>
    have hparse := parseJSONString_written token []
    simp only [scanIntValue, Doc.text, int64, if_true]
    rw [show written token ++ ['"'] = written token ++ '"' :: [] from rfl, hparse]
  | arr items stop | obj members stop =>
    simp only [scanIntValue, Doc.text, int64]
    rw [if_neg (by decide), parseInt64_of_head _ (by decide)]
    rfl

/-- The counter of the member whose key is written like this, 0 if there is none. -/
def writtenCount (u : Doc) (key : List Char) : Int := ((u.rawField key).map int64).getD 0

@[simp]
theorem scanFieldInt64_text : scanFieldInt64 u.text key = writtenCount u key := by
  unfold scanFieldInt64 writtenCount
  rw [scanKeyValue_doc]
  cases u.rawField key with
  | none => rfl
  | some v => exact scanIntValue_text v

def isUsage (d : Doc) : Bool := d.isObj || d.isArr

theorem isStructured_text : isStructured d.text = isUsage d := by
  obtain ⟨c, s, htext, _, hobj, harr, _⟩ := text_head d
  simp [isStructured, isUsage, htext, hobj, harr]

theorem scanKeyValue_data : scanKeyValue data.text key = (data.doc.rawField key).map Doc.text :=
  scanKeyValue_text data.doc data.lead data.trail.1 key

/-- The member that counts as a usage object. -/
def usageField (d : Doc) (key : List Char) : Option Doc := (d.rawField key).filter isUsage

theorem filter_isStructured (v : Option Doc) :
    (v.map Doc.text).filter isStructured = (v.filter isUsage).map Doc.text := by
  cases v with
  | none => rfl
  | some d =>
    simp only [map_some, filter_some, isStructured_text]
    split <;> rfl

theorem usageInterval_data :
    usageInterval data.text key = (usageField data.doc key).map Doc.text := by
  rw [usageInterval, scanKeyValue_data, filter_isStructured]
  rfl

theorem usageInterval_doc : usageInterval d.text key = (usageField d key).map Doc.text := by
  rw [usageInterval, scanKeyValue_doc, filter_isStructured]
  rfl

/-- A string as it is written. -/
def rawStr : Doc → Option (List Char)
  | .str token => some (written token)
  | _ => none

def docType (d : Doc) : Option (List Char) := (d.rawField Keys.type).bind rawStr

theorem typeValue_data : typeValue data.text = docType data.doc := by
  rw [typeValue, scanKeyValue_data, docType]
  cases data.doc.rawField Keys.type with
  | none => rfl
  | some v =>
    obtain ⟨c, s, htext, _, _, _, hstr⟩ := text_head v
    cases v with
    | str token => simp [Doc.text, rawStr, getLast?_cons]
    | _ =>
      have hc : c ≠ '"' := fun h => absurd (hstr.mp h) (by simp [Doc.isStr])
      simp [htext, rawStr, hc]

/-- The name of an event, out of the event line or out of the type of its data. -/
def eventName (name : List Char) (d : Doc) : List Char :=
  if Text.trimSpace name ≠ [] then Text.trimSpace name else (docType d).getD []

/-! ### Counters of a usage object -/

@[simp]
theorem firstPositive_nil : firstPositive [] = 0 := rfl

theorem firstPositive_cons (n : Int) (ns : List Int) :
    firstPositive (n :: ns) = if 0 < n then n else firstPositive ns := by
  by_cases h : 0 < n <;> simp [firstPositive, h]

theorem firstPositive_nonneg (ns : List Int) : 0 ≤ firstPositive ns := by
  induction ns with
  | nil => exact Int.le_refl 0
  | cons n ns ih =>
    rw [firstPositive_cons]
    split <;> omega

/-- The counter of a member inside a member. -/
def writtenNested (u : Doc) (outer key : List Char) : Int :=
  ((u.rawField outer).map fun d => writtenCount d key).getD 0

theorem scanNestedInt64_text (outer key : List Char) :
    scanNestedInt64 u.text outer key = writtenNested u outer key := by
  rw [scanNestedInt64, scanKeyValue_doc, writtenNested]
  simp [Function.comp_def]

def writtenCreation (u : Doc) : Int :=
  firstPositive [addUsageTokens (writtenNested u cacheCreation ephemeral5m)
      (writtenNested u cacheCreation ephemeral1h),
    writtenNested u cacheCreation cacheCreationInputTokens,
    writtenNested u cacheCreation cacheWriteInputTokens, writtenNested u cacheCreation inputTokens,
    writtenNested u cacheCreation cacheCreationTokens,
    writtenCount u cacheCreation, writtenCount u cacheCreationInputTokens,
    writtenCount u cacheWriteInputTokens, writtenCount u cacheCreationTokens]

theorem cacheCreationTokensFromInterval_text :
    cacheCreationTokensFromInterval u.text = writtenCreation u := by
  unfold cacheCreationTokensFromInterval writtenCreation
  rw [scanKeyValue_doc]
  cases hcache : u.rawField cacheCreation with
  | none => simp [writtenNested, writtenCount, hcache, firstPositive_cons, addUsageTokens, maxInt64]
  | some d =>
    have hscalar : (if isStructured d.text then 0 else scanIntValue d.text) = int64 d := by
      rw [isStructured_text, scanIntValue_text]
      cases d <;> rfl
    have hcount : writtenCount u cacheCreation = int64 d := by simp [writtenCount, hcache]
    have hnested : ∀ key, writtenNested u cacheCreation key = writtenCount d key := by
      simp [writtenNested, hcache]
    simp [hscalar, hcount, hnested]

/-- The cache reads that the scanner counts, where none of them is negative. -/
def writtenCacheRead (u : Doc) (crKey : List Char) : Int :=
  firstPositive [writtenNested u crKey cachedTokens, writtenCount u cacheReadInputTokens,
    writtenCount u cacheReadTokens]

theorem usageFieldsFromInterval_text (itKey otKey crKey : List Char)
    (h : 0 ≤ writtenNested u crKey cachedTokens) :
    usageFieldsFromInterval u.text itKey otKey crKey =
      { it := deductCacheRead (writtenCount u itKey) (writtenCacheRead u crKey)
        ot := writtenCount u otKey
        tt := fallback (writtenCount u totalTokens)
          (addUsageTokens (writtenCount u itKey) (writtenCount u otKey))
        cr := writtenCacheRead u crKey
        cc := writtenCreation u } := by
  have hread : (if writtenNested u crKey cachedTokens ≤ 0 ∧
        0 < firstPositive [writtenCount u cacheReadInputTokens, writtenCount u cacheReadTokens] then
      firstPositive [writtenCount u cacheReadInputTokens, writtenCount u cacheReadTokens]
      else writtenNested u crKey cachedTokens) = writtenCacheRead u crKey := by
    rw [writtenCacheRead, firstPositive_cons (writtenNested ..)]
    have hflat := firstPositive_nonneg [writtenCount u cacheReadInputTokens,
      writtenCount u cacheReadTokens]
    split_ifs <;> omega
  unfold usageFieldsFromInterval
  simp [scanNestedInt64_text, hread, cacheCreationTokensFromInterval_text]

/-! ### What a whole response has -/

/-- A decimal `int64` that is not negative. -/
structure IsCounter (n : Number) : Prop where
  decimal : n.Decimal
  nonneg : 0 ≤ n.mantissa
  fits : n.mantissa < 2 ^ 63

/-- The decoders agree on counters. -/
structure Decoders.Standard (dec : Decoders) : Prop where
  sdk_none : dec.sdkInt none = 0
  sdk_counter : ∀ n, IsCounter n → dec.sdkInt (some (.num n)) = n.mantissa
  gjson_counter : ∀ n, IsCounter n → dec.gjsonInt (.num n) = n.mantissa

def counterKeys : List (List Char) :=
  [promptTokens, completionTokens, totalTokens, cachedTokens, ephemeral5m,
    ephemeral1h, inputTokens, outputTokens, cacheReadInputTokens,
    cacheReadTokens, cacheCreationInputTokens, cacheWriteInputTokens,
    cacheCreationTokens, Keys.tokens]

/-- No key twice, and every counter is a number. -/
structure Counted (d : Doc) : Prop where
  unique : d.UniqueKeys
  counters : ∀ key ∈ counterKeys, ∀ v, d.firstField key = some v → ∃ n, v = .num n ∧ IsCounter n

def nestedKeys : List (List Char) :=
  [promptTokensDetails, inputTokensDetails, cacheCreation]

/-- A usage object whose members, nested ones too, are counters where they are present. -/
structure UsageObject (u : Doc) : Prop extends Counted u where
  isObj : u.isObj
  nested : ∀ key ∈ nestedKeys, ∀ d, u.firstField key = some d → Counted d

def count : Doc → Int
  | .num n => n.mantissa
  | _ => 0

/-- The counter that has the key, 0 if there is none. -/
def decodedCount (u : Doc) (key : List Char) : Int := ((u.firstField key).map count).getD 0

def decodedNested (u : Doc) (outer key : List Char) : Int :=
  ((u.firstField outer).map fun d => decodedCount d key).getD 0

theorem plain_counterKeys : ∀ key ∈ counterKeys, '\\' ∉ key := by decide +kernel

theorem plain_nestedKeys : ∀ key ∈ nestedKeys, '\\' ∉ key := by decide +kernel

variable {key : List Char}

namespace Counted

variable {d : Doc}

theorem decodedCount_nonneg (h : Counted d) (hkey : key ∈ counterKeys) :
    0 ≤ decodedCount d key := by
  unfold decodedCount
  cases hv : d.firstField key with
  | none => exact Int.le_refl 0
  | some v =>
    obtain ⟨n, rfl, hn⟩ := h.counters key hkey v hv
    exact hn.nonneg

/-- The scanner reads a counter if its key is written without escapes. -/
theorem writtenCount_eq (h : Counted d) (hkey : key ∈ counterKeys) :
    writtenCount d key = if (d.rawField key).isSome then decodedCount d key else 0 := by
  unfold writtenCount decodedCount
  cases hv : d.rawField key with
  | none => rfl
  | some v =>
    have hfirst := Doc.firstField_of_rawField h.unique (plain_counterKeys key hkey) hv
    obtain ⟨n, rfl, hn⟩ := h.counters key hkey v hfirst
    rw [hfirst]
    simp [int64, count, Number.parseInt64_text hn.decimal (by have := hn.nonneg; omega) hn.fits]

theorem writtenCount_nonneg (h : Counted d) (hkey : key ∈ counterKeys) :
    0 ≤ writtenCount d key := by
  rw [h.writtenCount_eq hkey]
  split
  · exact h.decodedCount_nonneg hkey
  · exact Int.le_refl 0

/-- A counter that the scanner does not miss is the one that has the key. -/
theorem writtenCount_of_pos (h : Counted d) (hkey : key ∈ counterKeys)
    (hpos : writtenCount d key ≠ 0) : writtenCount d key = decodedCount d key := by
  rw [h.writtenCount_eq hkey] at hpos ⊢
  split
  · rfl
  · next hnone => exact absurd (if_neg hnone) hpos

end Counted

variable {u : Doc} {outer key : List Char}

theorem UsageObject.writtenNested_nonneg (h : UsageObject u) (houter : outer ∈ nestedKeys)
    (hkey : key ∈ counterKeys) : 0 ≤ writtenNested u outer key := by
  unfold writtenNested
  cases hd : u.rawField outer with
  | none => exact Int.le_refl 0
  | some d =>
    have hfirst := Doc.firstField_of_rawField h.unique (plain_nestedKeys outer houter) hd
    exact (h.nested outer houter d hfirst).writtenCount_nonneg hkey

/-! ### Whole responses by their counters -/

def wholeCacheRead (u : Doc) (crKey : List Char) : Int :=
  firstPositive [decodedNested u crKey cachedTokens, decodedCount u cacheReadInputTokens,
    decodedCount u cacheReadTokens, decodedCount u cachedTokens]

def wholeCreation (u : Doc) : Int :=
  firstPositive [addUsageTokens (decodedNested u cacheCreation ephemeral5m)
      (decodedNested u cacheCreation ephemeral1h),
    decodedCount u cacheCreationInputTokens, decodedCount u cacheWriteInputTokens,
    decodedNested u cacheCreation inputTokens,
    decodedNested u cacheCreation Keys.tokens, decodedCount u cacheCreationTokens]

theorem fallback_firstPositive (n : Int) (ns : List Int) :
    fallback n (firstPositive (n :: ns)) = firstPositive (n :: ns) := by
  unfold fallback
  rw [firstPositive_cons]
  split_ifs <;> omega

theorem fallback_singleton (n other : Int) :
    fallback (firstPositive [n]) other = fallback n other := by
  unfold fallback
  rw [firstPositive_cons, firstPositive_nil]
  split_ifs <;> omega

variable {dec : Decoders}

section
variable (hdec : dec.Standard)

include hdec

theorem sdkInt_eq {d : Doc} (h : Counted d) (hkey : key ∈ counterKeys) :
    dec.sdkInt (d.lastField key) = decodedCount d key := by
  rw [Doc.lastField_eq_firstField h.unique, decodedCount]
  cases hv : d.firstField key with
  | none => exact hdec.sdk_none
  | some v =>
    obtain ⟨n, rfl, hn⟩ := h.counters key hkey v hv
    exact hdec.sdk_counter n hn

theorem sdkInt_nested_eq (h : UsageObject u) (houter : outer ∈ nestedKeys)
    (hkey : key ∈ counterKeys) :
    dec.sdkInt ((u.lastField outer).bind fun d => d.lastField key) = decodedNested u outer key := by
  rw [Doc.lastField_eq_firstField h.unique, decodedNested]
  cases hd : u.firstField outer with
  | none => exact hdec.sdk_none
  | some d => exact sdkInt_eq hdec (h.nested outer houter d hd) hkey

theorem gjsonCount_eq {d : Doc} (h : Counted d) (hkey : key ∈ counterKeys) :
    gjsonCount dec d [key] = decodedCount d key := by
  have hget : gjsonGet d [key] = d.firstField key := rfl
  rw [gjsonCount, hget, decodedCount]
  cases hv : d.firstField key with
  | none => rfl
  | some v =>
    obtain ⟨n, rfl, hn⟩ := h.counters key hkey v hv
    exact hdec.gjson_counter n hn

theorem gjsonCount_nested_eq (h : UsageObject u)
    (houter : outer ∈ nestedKeys) (hkey : key ∈ counterKeys) :
    gjsonCount dec u [outer, key] = decodedNested u outer key := by
  have hget : gjsonGet u [outer, key] = (u.firstField outer).bind fun d => d.firstField key := rfl
  rw [gjsonCount, hget, decodedNested]
  cases hd : u.firstField outer with
  | none => rfl
  | some d => exact gjsonCount_eq hdec (h.nested outer houter d hd) hkey

theorem presentInt_eq {d : Doc} (h : Counted d) (hkey : key ∈ counterKeys) :
    presentInt dec (gjsonGet d [key]) = decodedCount d key := by
  rw [← gjsonCount_eq hdec h hkey, gjsonCount]
  have hget : gjsonGet d [key] = d.firstField key := rfl
  rw [hget]
  cases hv : d.firstField key with
  | none => rfl
  | some v =>
    obtain ⟨n, rfl, _⟩ := h.counters key hkey v hv
    rfl

theorem presentInt_nested_eq (h : UsageObject u)
    (houter : outer ∈ nestedKeys) (hkey : key ∈ counterKeys) :
    presentInt dec (gjsonGet u [outer, key]) = decodedNested u outer key := by
  have hget : gjsonGet u [outer, key] = (u.firstField outer).bind fun d => d.firstField key := rfl
  rw [hget, decodedNested]
  cases hd : u.firstField outer with
  | none => rfl
  | some d => exact presentInt_eq hdec (h.nested outer houter d hd) hkey

theorem cacheCreation_eq (h : UsageObject u) :
    fallback (cacheCreationFromRaw dec u) (rawUsageNumber dec u
      [[cacheCreationInputTokens], [cacheWriteInputTokens],
        [cacheCreation, inputTokens]]) = wholeCreation u := by
  have htop : ∀ key ∈ counterKeys, gjsonCount dec u [key] = decodedCount u key :=
    fun key hkey => gjsonCount_eq hdec h.toCounted hkey
  have hcache : ∀ key ∈ counterKeys,
      gjsonCount dec u [cacheCreation, key] = decodedNested u cacheCreation key :=
    fun key hkey => gjsonCount_nested_eq hdec h (by simp [nestedKeys]) hkey
  have hcreation : cacheCreationFromRaw dec u = wholeCreation u := by
    unfold cacheCreationFromRaw wholeCreation
    rw [firstPositive_cons]
    simp [htop _ (show cacheCreationInputTokens ∈ _ by simp [counterKeys]),
      htop _ (show cacheWriteInputTokens ∈ _ by simp [counterKeys]),
      htop _ (show cacheCreationTokens ∈ _ by simp [counterKeys]),
      hcache _ (show ephemeral5m ∈ _ by simp [counterKeys]),
      hcache _ (show ephemeral1h ∈ _ by simp [counterKeys]),
      hcache _ (show inputTokens ∈ _ by simp [counterKeys]),
      hcache _ (show Keys.tokens ∈ _ by simp [counterKeys])]
  rw [hcreation, rawUsageNumber]
  simp only [map_cons, map_nil,
    presentInt_eq hdec h.toCounted
      (show cacheCreationInputTokens ∈ counterKeys by simp [counterKeys]),
    presentInt_eq hdec h.toCounted
      (show cacheWriteInputTokens ∈ counterKeys by simp [counterKeys]),
    presentInt_nested_eq hdec h (show cacheCreation ∈ nestedKeys by simp [nestedKeys])
      (show inputTokens ∈ counterKeys by simp [counterKeys])]
  simp only [wholeCreation, firstPositive_cons, fallback]
  split_ifs <;> omega

theorem usageFromResponse_eq (h : UsageObject u) {itKey itKey' otKey otKey' crKey : List Char}
    (hit : itKey ∈ counterKeys) (hit' : itKey' ∈ counterKeys) (hot : otKey ∈ counterKeys)
    (hot' : otKey' ∈ counterKeys) (hcr : crKey ∈ nestedKeys) :
    usageFromResponse dec [itKey, itKey'] [otKey, otKey'] crKey
        (decodeUsage dec itKey otKey crKey u) =
      let it := firstPositive [decodedCount u itKey, decodedCount u itKey']
      let ot := firstPositive [decodedCount u otKey, decodedCount u otKey']
      { it := deductCacheRead it (wholeCacheRead u crKey), ot
        tt := fallback (decodedCount u totalTokens) (addUsageTokens it ot)
        cr := wholeCacheRead u crKey
        cc := wholeCreation u } := by
  have htop : ∀ key ∈ counterKeys, presentInt dec (gjsonGet u [key]) = decodedCount u key :=
    fun key hkey => presentInt_eq hdec h.toCounted hkey
  have hcached : cachedTokens ∈ counterKeys := by simp [counterKeys]
  have htotal : totalTokens ∈ counterKeys := by simp [counterKeys]
  simp only [usageFromResponse, decodeUsage, cacheCreation_eq hdec h]
  simp [sdkInt_eq hdec h.toCounted hit, sdkInt_eq hdec h.toCounted hot,
    sdkInt_eq hdec h.toCounted htotal, sdkInt_nested_eq hdec h hcr hcached,
    rawUsageNumber, htop _ hit, htop _ hit', htop _ hot, htop _ hot', htop _ htotal, htop _ hcached,
    htop _ (show cacheReadInputTokens ∈ counterKeys by simp [counterKeys]),
    htop _ (show cacheReadTokens ∈ counterKeys by simp [counterKeys]),
    presentInt_nested_eq hdec h hcr hcached, fallback_firstPositive, fallback_singleton,
    wholeCacheRead]

end

/-! ### Frames by their counters -/

/-- The usage object inside a member of a frame. -/
def innerUsage (d : Doc) (key : List Char) : Option Doc :=
  (d.rawField key).bind fun inner => usageField inner Keys.usage

def startCounts (v : Doc) : UsageTuple where
  it := writtenCount v inputTokens
  cr := writtenCount v cacheReadInputTokens
  cc := writtenCount v cacheCreationInputTokens
  cacheReadExcludedFromTotal := true

def flatStartCounts (u : Doc) : UsageTuple where
  it := fallback (writtenCount u inputTokens) (writtenCount u promptTokens)
  cr := fallback (writtenCount u cacheReadInputTokens) (writtenCount u cachedTokens)
  cc := writtenCount u cacheCreationInputTokens
  cacheReadExcludedFromTotal := true

/-- The output counter that a delta has, under the first of its two names that is there. -/
def deltaOutput (u : Doc) : Option Int :=
  ((u.rawField outputTokens).map fun _ => writtenCount u outputTokens).or
    ((u.rawField completionTokens).map fun _ => writtenCount u completionTokens)

def deltaCounts (ot : Int) : UsageTuple where
  ot := ot
  cacheReadExcludedFromTotal := true

def isSummary (u : Doc) : Bool := summaryKeys.any fun key => (u.rawField key).isSome

def summaryInput (u : Doc) : Int :=
  fallback (writtenCount u inputTokens) (writtenCount u promptTokens)

def summaryOutput (u : Doc) : Int :=
  fallback (writtenCount u outputTokens) (writtenCount u completionTokens)

def summaryCounts (u : Doc) : UsageTuple where
  it := summaryInput u
  ot := summaryOutput u
  tt := fallback (writtenCount u totalTokens)
    (addUsageTokens (summaryInput u) (summaryOutput u))
  cr := fallback (writtenCount u cacheReadInputTokens) (writtenCount u cacheReadTokens)
  cc := fallback (writtenCount u cacheCreationInputTokens)
    (writtenCount u cacheWriteInputTokens)
  cacheReadExcludedFromTotal := true

def topCounts (u : Doc) : UsageTuple :=
  if isSummary u then summaryCounts u
  else
    usageFieldsFromInterval u.text promptTokens completionTokens promptTokensDetails

/-- What a frame says, by the name of its event. -/
def eventCounts (name : List Char) (d : Doc) : Option UsageTuple :=
  let top := usageField d Keys.usage
  let named :=
    if eventName name d = messageStart then
      ((innerUsage d Keys.message).map startCounts).or (top.map flatStartCounts)
    else if eventName name d = messageDelta then (top.bind deltaOutput).map deltaCounts
    else none
  named.or (top.map topCounts)

theorem fallback_self (n : Int) : fallback n n = n := ite_self n

theorem deltaCounter_data :
    deltaCounter key data.text = (usageField data.doc Keys.usage).bind fun u =>
      (u.rawField key).map fun _ => writtenCount u key := by
  rw [deltaCounter, usageInterval_data]
  cases usageField data.doc Keys.usage with
  | none => rfl
  | some u => simp [scanKeyValue_doc, Function.comp_def]

theorem anthropicDeltaUsageCompat_data :
    anthropicDeltaUsageCompat data.text = (usageField data.doc Keys.usage).bind deltaOutput := by
  rw [anthropicDeltaUsageCompat, anthropicDeltaUsage, deltaCounter_data, deltaCounter_data]
  cases usageField data.doc Keys.usage <;> rfl

theorem innerUsageInterval_data :
    innerUsageInterval data.text key = (innerUsage data.doc key).map Doc.text := by
  rw [innerUsageInterval, scanKeyValue_data, innerUsage]
  cases data.doc.rawField key with
  | none => rfl
  | some inner => exact usageInterval_doc inner Keys.usage

theorem anthropicStartUsageCompat_data :
    (anthropicStartUsageCompat data.text).map (fun t =>
        { t with cacheReadExcludedFromTotal := true }) =
      ((innerUsage data.doc Keys.message).map startCounts).or
        ((usageField data.doc Keys.usage).map flatStartCounts) := by
  rw [anthropicStartUsageCompat, anthropicStartUsage, innerUsageInterval_data, usageInterval_data]
  cases innerUsage data.doc Keys.message with
  | some v => simp [startCounts]
  | none =>
    cases usageField data.doc Keys.usage with
    | none => rfl
    | some u => simp [flatStartCounts, fallback_self]

theorem summaryUsage_data :
    ((anthropicSummaryUsageCompat data.text).map fun t =>
        { t with cacheReadExcludedFromTotal := true }).or (chatStreamUsage data.text) =
      (usageField data.doc Keys.usage).map topCounts := by
  unfold anthropicSummaryUsageCompat chatStreamUsage
  rw [usageInterval_data]
  cases usageField data.doc Keys.usage with
  | none => rfl
  | some u =>
    have hsummary : (summaryKeys.any fun key => (scanKeyValue u.text key).isSome) =
        isSummary u := by
      simp [scanKeyValue_doc, isSummary]
    simp only [map_some, bind_some, hsummary, topCounts]
    split
    · simp [summaryUsage, summaryCounts, summaryInput, summaryOutput]
    · simp

theorem chatStreamUsageEvent_data (name : List Char) (data : Data) :
    chatStreamUsageEvent name data.text = eventCounts name data.doc := by
  unfold chatStreamUsageEvent eventCounts
  simp only [usageStreamEventName, typeValue_data, summaryUsage_data,
    anthropicStartUsageCompat_data, anthropicDeltaUsageCompat_data]
  rfl

end C4Gateway.Proxy
