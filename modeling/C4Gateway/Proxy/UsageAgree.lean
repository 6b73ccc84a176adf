import C4Gateway.Proxy.UsagePaths

/-! Whether a stream and a whole response count the same usage object alike.  Each shape of a frame
has its condition on the counters of the object, as they are written and as they are decoded. -/

namespace C4Gateway.Proxy

open Option List JsonText Keys

def UsageTuple.SameCounts (t t' : UsageTuple) : Prop :=
  t.it = t'.it ∧ t.ot = t'.ot ∧ t.tt = t'.tt ∧ t.cr = t'.cr ∧ t.cc = t'.cc

theorem deductCacheRead_eq_iff {a b c : Int} (ha : 0 ≤ a) (hb : 0 ≤ b) :
    deductCacheRead a c = deductCacheRead b c ↔ a = b ∨ a ≤ c ∧ b ≤ c := by
  unfold deductCacheRead
  split_ifs <;> omega

theorem deductCacheRead_zero (c : Int) : deductCacheRead 0 c = 0 := by
  unfold deductCacheRead
  split_ifs <;> omega

theorem addUsageTokens_eq_zero_iff {a b : Int} (ha : 0 ≤ a) (hb : 0 ≤ b) :
    addUsageTokens a b = 0 ↔ a = 0 ∧ b = 0 := by
  simp only [addUsageTokens, maxInt64]
  split_ifs <;> omega

theorem fallback_eq_zero_iff {a b : Int} (ha : 0 ≤ a) : fallback a b = 0 ↔ a = 0 ∧ b = 0 := by
  unfold fallback
  split_ifs <;> omega

theorem firstPositive_pair_eq_zero_iff {a b : Int} (ha : 0 ≤ a) (hb : 0 ≤ b) :
    firstPositive [a, b] = 0 ↔ a = 0 ∧ b = 0 := by
  simp only [firstPositive_cons, firstPositive_nil]
  split_ifs <;> omega

/-! ### Native names -/

/-- The names of input, output and cached input of a protocol, with the other protocol's names. -/
structure Names where
  it : List Char
  it' : List Char
  ot : List Char
  ot' : List Char
  cr : List Char
  known : it ∈ counterKeys ∧ it' ∈ counterKeys ∧ ot ∈ counterKeys ∧ ot' ∈ counterKeys
  nested : cr ∈ nestedKeys

def Names.chat : Names where
  it := promptTokens
  it' := inputTokens
  ot := completionTokens
  ot' := outputTokens
  cr := promptTokensDetails
  known := by simp [counterKeys]
  nested := by simp [nestedKeys]

def Names.responses : Names where
  it := inputTokens
  it' := promptTokens
  ot := outputTokens
  ot' := completionTokens
  cr := inputTokensDetails
  known := by simp [counterKeys]
  nested := by simp [nestedKeys]

section
variable (names : Names) (u : Doc)

def wholeInput : Int := firstPositive [decodedCount u names.it, decodedCount u names.it']

def wholeOutput : Int := firstPositive [decodedCount u names.ot, decodedCount u names.ot']

/-- The total of a whole response. -/
def wholeTotal : Int :=
  fallback (decodedCount u totalTokens)
    (addUsageTokens (wholeInput names u) (wholeOutput names u))

def wholeCounts : UsageTuple where
  it := deductCacheRead (wholeInput names u) (wholeCacheRead u names.cr)
  ot := wholeOutput names u
  tt := wholeTotal names u
  cr := wholeCacheRead u names.cr
  cc := wholeCreation u

/-- The native names say what all names say. -/
structure NativeAgree : Prop where
  output : writtenCount u names.ot = wholeOutput names u
  cacheRead : writtenCacheRead u names.cr = wholeCacheRead u names.cr
  cacheCreation : writtenCreation u = wholeCreation u
  input : writtenCount u names.it = wholeInput names u ∨
    writtenCount u names.it ≤ wholeCacheRead u names.cr ∧
      wholeInput names u ≤ wholeCacheRead u names.cr
  total : writtenCount u totalTokens = 0 →
    addUsageTokens (writtenCount u names.it) (writtenCount u names.ot) = wholeTotal names u

variable {names u}

/-- A total that the scanner does not miss is the total of the whole response. -/
theorem UsageObject.total_eq_iff (h : UsageObject u) (n : Int) :
    fallback (writtenCount u totalTokens) n = wholeTotal names u ↔
      (writtenCount u totalTokens = 0 → n = wholeTotal names u) := by
  have hkey : totalTokens ∈ counterKeys := by simp [counterKeys]
  have hnonneg := h.writtenCount_nonneg hkey
  by_cases hzero : writtenCount u totalTokens = 0
  · simp [hzero, fallback]
  · have hpos : 0 < writtenCount u totalTokens := by omega
    refine iff_of_true ?_ fun h => absurd h hzero
    unfold wholeTotal
    rw [← h.writtenCount_of_pos hkey hzero]
    simp [fallback, if_neg (Int.not_le.mpr hpos)]

variable (names) in
theorem nativeAgree_iff (h : UsageObject u) :
    (usageFieldsFromInterval u.text names.it names.ot names.cr).SameCounts (wholeCounts names u) ↔
      NativeAgree names u := by
  have hcached : cachedTokens ∈ counterKeys := by simp [counterKeys]
  rw [usageFieldsFromInterval_text u _ _ _ (h.writtenNested_nonneg names.nested hcached)]
  have hit := h.writtenCount_nonneg names.known.1
  have hwhole : 0 ≤ wholeInput names u := firstPositive_nonneg _
  constructor
  · rintro ⟨hinput, hot, htt, hcr, hcc⟩
    refine ⟨hot, hcr, hcc, ?_, (h.total_eq_iff _).mp htt⟩
    dsimp only [wholeCounts] at hinput hcr
    rw [hcr] at hinput
    exact (deductCacheRead_eq_iff hit hwhole).mp hinput
  · intro hagree
    refine ⟨?_, hagree.output, (h.total_eq_iff _).mpr hagree.total, hagree.cacheRead,
      hagree.cacheCreation⟩
    rw [hagree.cacheRead]
    exact (deductCacheRead_eq_iff hit hwhole).mpr hagree.input

end

/-! ### Anthropic's names -/

/-- Anthropic's names, of which the input has no cache reads in it, say what all names say. -/
structure SummaryAgree (u : Doc) : Prop where
  output : summaryOutput u = wholeOutput .chat u
  cacheRead : fallback (writtenCount u cacheReadInputTokens)
    (writtenCount u cacheReadTokens) = wholeCacheRead u promptTokensDetails
  cacheCreation : fallback (writtenCount u cacheCreationInputTokens)
    (writtenCount u cacheWriteInputTokens) = wholeCreation u
  input : summaryInput u =
    deductCacheRead (wholeInput .chat u) (wholeCacheRead u promptTokensDetails)
  total : writtenCount u totalTokens = 0 →
    addUsageTokens (summaryInput u) (summaryOutput u) = wholeTotal .chat u

variable {names : Names} {u : Doc}

theorem summaryAgree_iff (h : UsageObject u) :
    (summaryCounts u).SameCounts (wholeCounts .chat u) ↔ SummaryAgree u := by
  constructor
  · rintro ⟨hit, hot, htt, hcr, hcc⟩
    exact ⟨hot, hcr, hcc, hit, (h.total_eq_iff _).mp htt⟩
  · intro hagree
    exact ⟨hagree.input, hagree.output, (h.total_eq_iff _).mpr hagree.total, hagree.cacheRead,
      hagree.cacheCreation⟩

/-! ### Frames with a part of the usage -/

/-- Neither input nor output nor a total is counted. -/
def Idle (u : Doc) : Prop :=
  ∀ key ∈ [promptTokens, inputTokens, completionTokens, outputTokens,
    totalTokens], decodedCount u key = 0

theorem wholeTotal_eq_zero (h : UsageObject u) (names : Names) :
    wholeTotal names u = 0 ↔ decodedCount u totalTokens = 0 ∧
      (decodedCount u names.it = 0 ∧ decodedCount u names.it' = 0) ∧
      (decodedCount u names.ot = 0 ∧ decodedCount u names.ot' = 0) := by
  have hnonneg : ∀ key ∈ counterKeys, 0 ≤ decodedCount u key := fun key hkey =>
    h.decodedCount_nonneg hkey
  have htotal : totalTokens ∈ counterKeys := by simp [counterKeys]
  obtain ⟨hit, hit', hot, hot'⟩ := names.known
  rw [wholeTotal, fallback_eq_zero_iff (hnonneg _ htotal), wholeInput, wholeOutput,
    addUsageTokens_eq_zero_iff (firstPositive_nonneg _) (firstPositive_nonneg _),
    firstPositive_pair_eq_zero_iff (hnonneg _ hit) (hnonneg _ hit'),
    firstPositive_pair_eq_zero_iff (hnonneg _ hot) (hnonneg _ hot')]

/-- The names of a protocol are those of the usage, in its own order. -/
def Names.Usual (names : Names) : Prop := names = .chat ∨ names = .responses

theorem wholeTotal_eq_zero_iff (h : UsageObject u) (hnames : names.Usual) :
    wholeTotal names u = 0 ↔ Idle u := by
  rw [wholeTotal_eq_zero h]
  rcases hnames with rfl | rfl <;> simp only [Idle, forall_mem_cons] <;> tauto

theorem whole_of_wholeTotal (h : UsageObject u) (hzero : wholeTotal names u = 0) :
    (wholeCounts names u).it = 0 ∧ (wholeCounts names u).ot = 0 := by
  obtain ⟨_, ⟨hit, hit'⟩, hot, hot'⟩ := (wholeTotal_eq_zero h names).mp hzero
  simp [wholeCounts, wholeInput, wholeOutput, hit, hit', hot, hot', firstPositive_cons,
    deductCacheRead_zero]

theorem Idle.written (hidle : Idle u) (h : UsageObject u) {key : List Char}
    (hkey : key ∈ [promptTokens, inputTokens, completionTokens, outputTokens, totalTokens]) :
    writtenCount u key = 0 := by
  have hcounter : key ∈ counterKeys := by
    simp only [mem_cons, not_mem_nil, or_false] at hkey
    rcases hkey with rfl | rfl | rfl | rfl | rfl <;> simp [counterKeys]
  by_contra hne
  exact hne ((h.writtenCount_of_pos hcounter hne).trans (hidle key hkey))

/-- A tuple without a total has what a whole response has if nothing but the cache is counted. -/
theorem sameCounts_partial_iff (h : UsageObject u) (hnames : names.Usual) {t : UsageTuple}
    (htt : t.tt = 0) :
    t.SameCounts (wholeCounts names u) ↔ Idle u ∧ t.it = 0 ∧ t.ot = 0 ∧
      t.cr = wholeCacheRead u names.cr ∧ t.cc = wholeCreation u := by
  have hidle := wholeTotal_eq_zero_iff h hnames
  constructor
  · rintro ⟨hit, hot, hwhole, hcr, hcc⟩
    have hzero : wholeTotal names u = 0 := hwhole.symm.trans htt
    obtain ⟨hinput, houtput⟩ := whole_of_wholeTotal h hzero
    exact ⟨hidle.mp hzero, hit.trans hinput, hot.trans houtput, hcr, hcc⟩
  · rintro ⟨hu, hit, hot, hcr, hcc⟩
    obtain ⟨hinput, houtput⟩ := whole_of_wholeTotal h (hidle.mpr hu)
    exact ⟨hit.trans hinput.symm, hot.trans houtput.symm, htt.trans (hidle.mpr hu).symm, hcr, hcc⟩

/-! ### Frames -/

/-- The frames of a Chat stream whose counts are those of the whole response.  A frame that opens a
message has the usage in the message, or only a part of it, and so has a delta; a frame with one of
Anthropic's names counts these, any other one the native names. -/
def ChatAgree (name : List Char) (d u : Doc) : Prop :=
  let event := eventName name d
  match (if event = messageStart then innerUsage d Keys.message else none) with
  | some v =>
    Idle u ∧ writtenCount v inputTokens = 0 ∧
      writtenCount v cacheReadInputTokens = wholeCacheRead u promptTokensDetails ∧
      writtenCount v cacheCreationInputTokens = wholeCreation u
  | none =>
    (d.rawField Keys.usage).isSome ∧
      if event = messageStart then
        Idle u ∧
          fallback (writtenCount u cacheReadInputTokens) (writtenCount u cachedTokens) =
            wholeCacheRead u promptTokensDetails ∧
          writtenCount u cacheCreationInputTokens = wholeCreation u
      else if event = messageDelta ∧ (deltaOutput u).isSome then
        Idle u ∧ wholeCacheRead u promptTokensDetails = 0 ∧ wholeCreation u = 0
      else if isSummary u then SummaryAgree u
      else NativeAgree .chat u

theorem topCounts_iff (h : UsageObject u) :
    (topCounts u).SameCounts (wholeCounts .chat u) ↔
      if isSummary u then SummaryAgree u else NativeAgree .chat u := by
  unfold topCounts
  split
  · exact summaryAgree_iff h
  · exact nativeAgree_iff .chat h

theorem flatStartCounts_iff (h : UsageObject u) :
    (flatStartCounts u).SameCounts (wholeCounts .chat u) ↔ Idle u ∧
      fallback (writtenCount u cacheReadInputTokens) (writtenCount u cachedTokens) =
        wholeCacheRead u promptTokensDetails ∧
      writtenCount u cacheCreationInputTokens = wholeCreation u := by
  rw [sameCounts_partial_iff h (.inl rfl) rfl]
  refine ⟨fun ⟨hidle, _, _, hcr, hcc⟩ => ⟨hidle, hcr, hcc⟩, fun ⟨hidle, hcr, hcc⟩ => ?_⟩
  refine ⟨hidle, ?_, rfl, hcr, hcc⟩
  simp [flatStartCounts, hidle.written h (show inputTokens ∈ _ by simp),
    hidle.written h (show promptTokens ∈ _ by simp), fallback]

theorem deltaCounts_iff (h : UsageObject u) {ot : Int} (hot : deltaOutput u = some ot) :
    (deltaCounts ot).SameCounts (wholeCounts .chat u) ↔
      Idle u ∧ wholeCacheRead u promptTokensDetails = 0 ∧ wholeCreation u = 0 := by
  rw [sameCounts_partial_iff h (.inl rfl) rfl]
  refine ⟨fun ⟨hidle, _, _, hcr, hcc⟩ => ⟨hidle, hcr.symm, hcc.symm⟩,
    fun ⟨hidle, hcr, hcc⟩ => ⟨hidle, rfl, ?_, hcr.symm, hcc.symm⟩⟩
  have houtput := hidle.written h (show outputTokens ∈ _ by simp)
  have hcompletion := hidle.written h (show completionTokens ∈ _ by simp)
  simp only [deltaOutput, houtput, hcompletion] at hot
  dsimp only [deltaCounts]
  cases hraw : u.rawField outputTokens with
  | some v => simpa [hraw] using hot.symm
  | none =>
    cases hraw' : u.rawField completionTokens with
    | some v => simpa [hraw, hraw'] using hot.symm
    | none => simp [hraw, hraw'] at hot

theorem usageField_of_firstField {d : Doc} (hd : d.UniqueKeys) (hu : u.isObj)
    (husage : d.firstField Keys.usage = some u) :
    usageField d Keys.usage = if (d.rawField Keys.usage).isSome then some u else none := by
  unfold usageField
  cases hraw : d.rawField Keys.usage with
  | none => rfl
  | some w =>
    have hw := Doc.firstField_of_rawField hd (show '\\' ∉ Keys.usage by decide +kernel) hraw
    obtain rfl := Option.some.inj (husage.symm.trans hw)
    simp [isUsage, hu]

theorem eventCounts_agree_iff (name : List Char) {d : Doc} (hd : d.UniqueKeys)
    (hu : UsageObject u) (husage : d.firstField Keys.usage = some u) :
    (∃ t, eventCounts name d = some t ∧ t.SameCounts (wholeCounts .chat u)) ↔
      ChatAgree name d u := by
  have htop := usageField_of_firstField hd hu.isObj husage
  unfold eventCounts ChatAgree
  rw [htop]
  by_cases hstart : eventName name d = messageStart
  · simp only [hstart, if_true]
    cases innerUsage d Keys.message with
    | some v =>
      simp only [map_some, some_or, Option.some.injEq, exists_eq_left']
      rw [sameCounts_partial_iff hu (.inl rfl) rfl]
      simp [startCounts, Names.chat]
    | none =>
      by_cases hraw : (d.rawField Keys.usage).isSome
      · simp [hraw, flatStartCounts_iff hu]
      · simp [hraw]
  · simp only [hstart]
    by_cases hraw : (d.rawField Keys.usage).isSome
    · simp only [hraw, if_true, bind_some]
      by_cases hdelta : eventName name d = messageDelta
      · cases hot : deltaOutput u with
        | none => simp [topCounts_iff hu]
        | some ot => simp [hdelta, deltaCounts_iff hu hot]
      · simp [hdelta, topCounts_iff hu]
    · simp [hraw]

/-- What the scanner takes for the usage of a Responses frame. -/
def seenUsage (d : Doc) : Option Doc :=
  (innerUsage d Keys.response).or (usageField d Keys.usage)

/-- The usage of a frame stands in its response or at its top, and there is none in the other
place. -/
structure ResponsesFrame (d u : Doc) : Prop where
  unique : d.UniqueKeys
  response : ∀ r, d.firstField Keys.response = some r → r.UniqueKeys
  place : ((d.firstField Keys.response).bind fun r => r.firstField Keys.usage) = some u ∧
      (∀ v, d.firstField Keys.usage = some v → isUsage v = false) ∨
    d.firstField Keys.usage = some u ∧ ∀ v,
      ((d.firstField Keys.response).bind fun r => r.firstField Keys.usage) = some v →
        isUsage v = false

namespace ResponsesFrame

variable {d u : Doc} (h : ResponsesFrame d u)

include h

variable {v : Doc}

theorem inner (hv : innerUsage d Keys.response = some v) :
    ((d.firstField Keys.response).bind fun r => r.firstField Keys.usage) = some v ∧
      isUsage v = true := by
  obtain ⟨r, hr, hv⟩ := bind_eq_some_iff.mp hv
  obtain ⟨hv, husage⟩ := filter_eq_some_iff.mp hv
  have hr := Doc.firstField_of_rawField h.unique (show '\\' ∉ Keys.response by decide +kernel) hr
  have hv := Doc.firstField_of_rawField (h.response r hr) (show '\\' ∉ Keys.usage by decide +kernel)
    hv
  rw [hr]
  exact ⟨hv, husage⟩

theorem top (hv : usageField d Keys.usage = some v) :
    d.firstField Keys.usage = some v ∧ isUsage v = true := by
  obtain ⟨hv, husage⟩ := filter_eq_some_iff.mp hv
  exact ⟨Doc.firstField_of_rawField h.unique (show '\\' ∉ Keys.usage by decide +kernel) hv, husage⟩

theorem top_eq (hv : usageField d Keys.usage = some v) : v = u := by
  obtain ⟨hv, husage⟩ := h.top hv
  rcases h.place with ⟨_, hnone⟩ | ⟨hu, _⟩
  · exact absurd (hnone v hv) (by simp [husage])
  · exact Option.some.inj (hv.symm.trans hu)

theorem seen (hv : seenUsage d = some v) : v = u := by
  rcases or_eq_some_iff.mp hv with hv | ⟨_, hv⟩
  · obtain ⟨hv, husage⟩ := h.inner hv
    rcases h.place with ⟨hu, _⟩ | ⟨_, hnone⟩
    · exact Option.some.inj (hv.symm.trans hu)
    · exact absurd (hnone v hv) (by simp [husage])
  · exact h.top_eq hv

/-- Only one of the two places has a usage object, so that nothing is merged. -/
theorem not_both {w : Doc} (hv : innerUsage d Keys.response = some v) :
    usageField d Keys.usage ≠ some w := by
  intro hw
  obtain ⟨hv, hinner⟩ := h.inner hv
  obtain ⟨hw, htop⟩ := h.top hw
  rcases h.place with ⟨_, hnone⟩ | ⟨_, hnone⟩
  · exact absurd (hnone w hw) (by simp [htop])
  · exact absurd (hnone v hv) (by simp [hinner])

end ResponsesFrame

theorem responsesTopLevelUsage_data (data : Data) : responsesTopLevelUsage data.text =
    (usageField data.doc Keys.usage).map fun u => responsesUsageFields u.text := by
  rw [responsesTopLevelUsage, usageInterval_data, Option.map_map]
  rfl

theorem responsesStreamUsage_data {data : Data} (h : ResponsesFrame data.doc u) :
    responsesStreamUsage data.text =
      (seenUsage data.doc).map fun u => responsesUsageFields u.text := by
  have hnested : responsesCompletedUsage data.text = (innerUsage data.doc Keys.response).map
      fun u => responsesUsageFields u.text := by
    rw [responsesCompletedUsage, innerUsageInterval_data, Option.map_map]
    rfl
  unfold responsesStreamUsage seenUsage
  rw [hnested, responsesTopLevelUsage_data]
  cases hv : innerUsage data.doc Keys.response with
  | none => rfl
  | some v =>
    cases hw : usageField data.doc Keys.usage with
    | none => rfl
    | some w => exact absurd hw (h.not_both hv)

theorem responses_agree_iff {data : Data} (hu : UsageObject u) (h : ResponsesFrame data.doc u) :
    (∃ t, responsesStreamUsage data.text = some t ∧ t.SameCounts (wholeCounts .responses u)) ↔
      (seenUsage data.doc).isSome ∧ NativeAgree .responses u := by
  rw [responsesStreamUsage_data h]
  cases hseen : seenUsage data.doc with
  | none => simp
  | some v =>
    obtain rfl := h.seen hseen
    simp only [map_some, Option.some.injEq, exists_eq_left', isSome_some, true_and]
    exact nativeAgree_iff .responses hu

theorem usageFromResponse_names {dec : Decoders} (hdec : dec.Standard) (h : UsageObject u)
    (names : Names) :
    usageFromResponse dec [names.it, names.it'] [names.ot, names.ot'] names.cr
        (decodeUsage dec names.it names.ot names.cr u) = wholeCounts names u :=
  usageFromResponse_eq hdec h names.known.1 names.known.2.1 names.known.2.2.1 names.known.2.2.2
    names.nested

/-- A usage object counts the same in a stream and in a whole response if and only if the names that
the frame is read by say what all names say. -/
theorem streamed_counts_iff (dec : Decoders) (hdec : dec.Standard) (u : Doc) (hu : UsageObject u) :
    (∀ (name : List Char) (data : Data), data.doc.UniqueKeys →
      data.doc.firstField Keys.usage = some u →
        ((∃ t, chatStreamUsageEvent name data.text = some t ∧
          t.SameCounts (chatUsageFromResponse dec (completionUsage dec u))) ↔
            ChatAgree name data.doc u)) ∧
      ∀ data : Data, ResponsesFrame data.doc u →
        ((∃ t, responsesStreamUsage data.text = some t ∧
          t.SameCounts (responsesUsageFromResponse dec (responseUsage dec u))) ↔
            (seenUsage data.doc).isSome ∧ NativeAgree .responses u) := by
  have hchat : chatUsageFromResponse dec (completionUsage dec u) = wholeCounts .chat u :=
    usageFromResponse_names hdec hu .chat
  have hresponses : responsesUsageFromResponse dec (responseUsage dec u) =
      wholeCounts .responses u := usageFromResponse_names hdec hu .responses
  rw [hchat, hresponses]
  refine ⟨fun name data hdata husage => ?_, fun data hdata => responses_agree_iff hu hdata⟩
  rw [chatStreamUsageEvent_data]
  exact eventCounts_agree_iff name hdata hu husage

/-- Decoders that know numbers only. -/
def exactDecoders : Decoders where
  sdkInt v := (v.map count).getD 0
  gjsonInt := count

theorem exactDecoders_standard : exactDecoders.Standard where
  sdk_none := rfl
  sdk_counter _ _ := rfl
  gjson_counter _ _ := rfl

/-- An object whose members are counters. -/
theorem UsageObject.of_members (hobj : u.isObj) (hunique : u.UniqueKeys)
    (h : ∀ m ∈ u.members, ∃ n, m.2 = .num n ∧ IsCounter n) : UsageObject u := by
  have hfield : ∀ key v, u.firstField key = some v → ∃ n, v = .num n ∧ IsCounter n := by
    intro key v hv
    obtain ⟨m, hm, rfl⟩ := map_eq_some_iff.mp hv
    exact h m (mem_of_find?_eq_some hm)
  refine ⟨⟨hunique, fun key _ => hfield key⟩, hobj, fun key _ d hd => ?_⟩
  obtain ⟨n, rfl, _⟩ := hfield key d hd
  exact ⟨nodup_nil, fun key _ v hv => absurd hv (by simp [Doc.firstField, Doc.members])⟩

/-- 100 tokens in, 50 out. -/
def nativeUsage : Doc :=
  object [("prompt_tokens", .num (.ofDigits 1 [0, 0])),
    ("completion_tokens", .num (.ofDigits 5 [0])), ("total_tokens", .num (.ofDigits 1 [5, 0]))]

theorem isCounter_of_decide {n : Number} (h : n.fraction = [] ∧ n.exponent.isNone ∧
    0 ≤ n.mantissa ∧ n.mantissa < 2 ^ 63) : IsCounter n :=
  ⟨⟨h.1, isNone_iff_eq_none.mp h.2.1⟩, h.2.2.1, h.2.2.2⟩

theorem nativeUsage_object : UsageObject nativeUsage := by
  refine .of_members rfl (by unfold Doc.UniqueKeys; decide +kernel) fun m hm => ?_
  simp only [nativeUsage, object, Doc.members, map_cons, map_nil, mem_cons, not_mem_nil,
    or_false] at hm
  rcases hm with rfl | rfl | rfl <;> exact ⟨_, rfl, isCounter_of_decide (by decide)⟩

theorem firstField_object {k : String} {key : List Char} (v : Doc) (members : List (String × Doc))
    (h : decode (plain k) = key) : (object ((k, v) :: members)).firstField key = some v := by
  simp [object, Doc.firstField, Doc.members, h]

/-- A frame without an event name that has nothing but a usage object. -/
theorem chatAgree_usage (hsummary : isSummary u = false) (h : NativeAgree .chat u) :
    ChatAgree [] (object [("usage", u)]) u := by
  have hraw : (object [("usage", u)]).rawField Keys.usage = some u := by
    have hkey : written (plain "usage") = Keys.usage := by decide +kernel
    simp [object, Doc.rawField, Doc.members, hkey]
  have hevent : eventName [] (object [("usage", u)]) = [] := by
    have hkey : written (plain "usage") ≠ Keys.type := by decide +kernel
    simp [eventName, docType, object, Doc.rawField, Doc.members, hkey]
  have hstart : [] ≠ messageStart := by decide +kernel
  have hdelta : [] ≠ messageDelta := by decide +kernel
  simp [ChatAgree, hevent, hraw, hstart, hdelta, hsummary, h]

theorem streamed_counts_native : ∃ t,
    chatStreamUsageEvent [] (object [("usage", nativeUsage)]).data.text = some t ∧
      t.SameCounts (chatUsageFromResponse exactDecoders
        (completionUsage exactDecoders nativeUsage)) := by
  have husage : (object [("usage", nativeUsage)]).firstField Keys.usage = some nativeUsage :=
    firstField_object _ _ (by decide +kernel)
  have hagree : NativeAgree .chat nativeUsage :=
    ⟨by decide +kernel, by decide +kernel, by decide +kernel, .inl (by decide +kernel),
      fun h => absurd h (by decide +kernel)⟩
  exact ((streamed_counts_iff exactDecoders exactDecoders_standard nativeUsage
    nativeUsage_object).1 [] (object [("usage", nativeUsage)]).data
      (by unfold Doc.UniqueKeys; decide +kernel) husage).mpr
        (chatAgree_usage (by decide +kernel) hagree)

/-- 100 tokens in, and 30 more out of the cache. -/
def anthropicUsage : Doc :=
  object [("input_tokens", .num (.ofDigits 1 [0, 0])),
    ("cache_read_input_tokens", .num (.ofDigits 3 [0]))]

/-- The stream charges 100 tokens of input where the whole response charges 70, and a Responses
stream charges nothing for counters with the Chat names. -/
theorem streamed_counts_differ :
    (chatStreamUsageEvent [] (object [("usage", anthropicUsage)]).data.text).map (·.it) = some 100 ∧
      (chatUsageFromResponse exactDecoders (completionUsage exactDecoders anthropicUsage)).it = 70 ∧
      (responsesStreamUsage (object [("usage", nativeUsage)]).data.text).map (·.it) = some 0 ∧
      (responsesUsageFromResponse exactDecoders (responseUsage exactDecoders nativeUsage)).it =
        100 := by
  exact ⟨by decide +kernel, by decide +kernel, by decide +kernel, by decide +kernel⟩

end C4Gateway.Proxy
