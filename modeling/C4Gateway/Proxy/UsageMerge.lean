import C4Gateway.Proxy.UsageAgree

/-! The usage of a whole Chat stream, merged frame by frame.  A component is there in the end if and
only if some frame is read for it, and it never goes away again. -/

namespace C4Gateway.Proxy

open JsonText Keys

abbrev Frame := List Char × Data

def mergeFrame (t : UsageTuple) (frame : Frame) : UsageTuple :=
  match chatStreamUsageEvent frame.1 frame.2.text with
  | none => t
  | some next => mergeStreamUsage t next

def mergedUsage (frames : List Frame) : UsageTuple := frames.foldl mergeFrame {}

inductive Component where
  | input
  | output
  | cacheRead
  | cacheCreation

namespace Component

def key : Component → List Char
  | input => inputTokens
  | output => outputTokens
  | cacheRead => cacheReadInputTokens
  | cacheCreation => cacheCreationInputTokens

def of (t : UsageTuple) : Component → Int
  | input => t.it
  | output => t.ot
  | cacheRead => t.cr
  | cacheCreation => t.cc

end Component

/-! ### Measured components -/

/-- A member has the key and the value. -/
def Holds (d : Doc) (key : List Char) (v : Doc) : Prop :=
  ∃ m ∈ d.members, decode m.1.token = key ∧ m.2 = v

/-- The frame has the usage object at its top, or in its message if it opens one. -/
def Carries (name : List Char) (d u : Doc) : Prop :=
  u.isObj ∧ (Holds d Keys.usage u ∨ eventName name d = messageStart ∧
    ∃ message, Holds d Keys.message message ∧ Holds message Keys.usage u)

def Measured (frame : Frame) (c : Component) : Prop :=
  ∃ u n, Carries frame.1 frame.2.doc u ∧ Holds u c.key (.num n) ∧ 0 < n.mantissa

/-! ### Components that are read -/

/-- The usage object of a message that is opened. -/
def ReadsStart (v : Doc) : Component → Prop
  | .output => False
  | c => 0 < writtenCount v c.key

/-- The usage object at the top of a frame that opens a message. -/
def ReadsFlatStart (u : Doc) : Component → Prop
  | .input => 0 < writtenCount u inputTokens ∨ 0 < writtenCount u promptTokens
  | .output => False
  | .cacheRead =>
    0 < writtenCount u cacheReadInputTokens ∨ 0 < writtenCount u cachedTokens
  | .cacheCreation => 0 < writtenCount u cacheCreationInputTokens

def ReadsDelta (ot : Int) : Component → Prop
  | .output => 0 < ot
  | _ => False

def ReadsSummary (u : Doc) : Component → Prop
  | .input => 0 < writtenCount u inputTokens ∨ 0 < writtenCount u promptTokens
  | .output => 0 < writtenCount u outputTokens ∨ 0 < writtenCount u completionTokens
  | .cacheRead =>
    0 < writtenCount u cacheReadInputTokens ∨ 0 < writtenCount u cacheReadTokens
  | .cacheCreation =>
    0 < writtenCount u cacheCreationInputTokens ∨ 0 < writtenCount u cacheWriteInputTokens

/-- None of Anthropic's names is there, so that the native ones count. -/
def ReadsNative (u : Doc) : Component → Prop
  | .input => 0 < writtenCount u promptTokens ∧
      writtenNested u promptTokensDetails cachedTokens < writtenCount u promptTokens
  | .output => 0 < writtenCount u completionTokens
  | .cacheRead => 0 < writtenNested u promptTokensDetails cachedTokens
  | .cacheCreation => 0 < writtenCreation u

/-- The frame is read for the component. -/
def Reads (frame : Frame) (c : Component) : Prop :=
  let d := frame.2.doc
  let event := eventName frame.1 d
  match (if event = messageStart then innerUsage d Keys.message else none) with
  | some v => ReadsStart v c
  | none =>
    ∃ u, usageField d Keys.usage = some u ∧
      if event = messageStart then ReadsFlatStart u c
      else
        match (if event = messageDelta then deltaOutput u else none) with
        | some ot => ReadsDelta ot c
        | none => if isSummary u then ReadsSummary u c else ReadsNative u c

theorem fallback_pos_iff {a b : Int} : 0 < fallback a b ↔ 0 < a ∨ a ≤ 0 ∧ 0 < b := by
  unfold fallback
  split_ifs <;> omega

theorem fallback_pos_iff_or {a b : Int} : 0 < fallback a b ↔ 0 < a ∨ 0 < b := by
  rw [fallback_pos_iff]
  omega

theorem deductCacheRead_pos_iff {a c : Int} : 0 < deductCacheRead a c ↔ 0 < a ∧ c < a := by
  unfold deductCacheRead
  split_ifs <;> omega

theorem startCounts_pos_iff (v : Doc) (c : Component) :
    0 < c.of (startCounts v) ↔ ReadsStart v c := by
  cases c <;> simp [Component.of, startCounts, ReadsStart, Component.key]

theorem flatStartCounts_pos_iff (u : Doc) (c : Component) :
    0 < c.of (flatStartCounts u) ↔ ReadsFlatStart u c := by
  cases c <;> simp [Component.of, flatStartCounts, ReadsFlatStart, fallback_pos_iff_or]

theorem deltaCounts_pos_iff (ot : Int) (c : Component) :
    0 < c.of (deltaCounts ot) ↔ ReadsDelta ot c := by
  cases c <;> simp [Component.of, deltaCounts, ReadsDelta]

theorem summaryCounts_pos_iff (u : Doc) (c : Component) :
    0 < c.of (summaryCounts u) ↔ ReadsSummary u c := by
  cases c <;> simp [Component.of, summaryCounts, summaryInput, summaryOutput, ReadsSummary,
    fallback_pos_iff_or]

theorem writtenCount_of_not_isSummary {u : Doc} (h : isSummary u = false) {key : List Char}
    (hkey : key ∈ summaryKeys) : writtenCount u key = 0 := by
  have hnone : u.rawField key = none := by
    by_contra hsome
    have : isSummary u = true :=
      List.any_eq_true.mpr ⟨key, hkey, Option.isSome_iff_ne_none.mpr hsome⟩
    exact absurd (this.symm.trans h) (by simp)
  simp [writtenCount, hnone]

theorem nativeCounts_pos_iff {u : Doc} (h : isSummary u = false) (c : Component) :
    0 < c.of (usageFieldsFromInterval u.text promptTokens completionTokens
      promptTokensDetails) ↔ ReadsNative u c := by
  have hread : writtenCount u cacheReadInputTokens = 0 :=
    writtenCount_of_not_isSummary h (by simp [summaryKeys])
  have hread' : writtenCount u cacheReadTokens = 0 :=
    writtenCount_of_not_isSummary h (by simp [summaryKeys])
  have hflat : firstPositive [0, 0] = 0 := rfl
  cases c <;> simp only [Component.of, usageFieldsFromInterval, scanNestedInt64_text,
    scanFieldInt64_text, hread, hread', hflat, cacheCreationTokensFromInterval_text, Int.lt_irrefl,
    and_false, if_false, deductCacheRead_pos_iff, ReadsNative]

theorem eventCounts_pos_iff (frame : Frame) (c : Component) :
    (∃ t, eventCounts frame.1 frame.2.doc = some t ∧ 0 < c.of t) ↔ Reads frame c := by
  have htop : ∀ u, 0 < c.of (topCounts u) ↔
      if isSummary u then ReadsSummary u c else ReadsNative u c := by
    intro u
    unfold topCounts
    split
    · exact summaryCounts_pos_iff u c
    · next h => exact nativeCounts_pos_iff (Bool.eq_false_iff.mpr h) c
  unfold eventCounts Reads
  by_cases hstart : eventName frame.1 frame.2.doc = messageStart
  · simp only [hstart]
    cases innerUsage frame.2.doc Keys.message with
    | some v => simp [startCounts_pos_iff]
    | none =>
      cases usageField frame.2.doc Keys.usage with
      | none => simp
      | some u => simp [flatStartCounts_pos_iff]
  · simp only [hstart]
    cases usageField frame.2.doc Keys.usage with
    | none => simp
    | some u =>
      by_cases hdelta : eventName frame.1 frame.2.doc = messageDelta
      · cases hot : deltaOutput u with
        | none => simp [hot, htop]
        | some ot => simp [hdelta, hot, deltaCounts_pos_iff]
      · simp [hdelta, htop]

/-! ### Merged frames -/

theorem mergeStreamUsage_pos_iff (t next : UsageTuple) (c : Component) :
    0 < c.of (mergeStreamUsage t next) ↔ 0 < c.of t ∨ 0 < c.of next := by
  unfold mergeStreamUsage
  split
  · next h =>
    obtain ⟨hit, hot, _, hcr, hcc⟩ := h
    cases c <;> simp [Component.of, hit, hot, hcr, hcc]
  · cases c <;> simp only [Component.of] <;> split_ifs <;> omega

theorem mergeFrame_pos_iff (t : UsageTuple) (frame : Frame) (c : Component) :
    0 < c.of (mergeFrame t frame) ↔ 0 < c.of t ∨ Reads frame c := by
  rw [← eventCounts_pos_iff, mergeFrame, chatStreamUsageEvent_data]
  cases eventCounts frame.1 frame.2.doc with
  | none => simp
  | some next => simp [mergeStreamUsage_pos_iff]

theorem foldl_mergeFrame_pos_iff (frames : List Frame) (t : UsageTuple) (c : Component) :
    0 < c.of (frames.foldl mergeFrame t) ↔ 0 < c.of t ∨ ∃ frame ∈ frames, Reads frame c := by
  induction frames generalizing t with
  | nil => simp
  | cons frame frames ih =>
    rw [List.foldl_cons, ih, mergeFrame_pos_iff]
    simp [or_assoc]

/-- Every measured component is in the merged usage if and only if some frame is read for each of
them, and no frame takes a component away again. -/
theorem mergedUsage_keeps_measured_iff (frames : List Frame) :
    ((∀ c, (∃ frame ∈ frames, Measured frame c) → 0 < c.of (mergedUsage frames)) ↔
      ∀ c, (∃ frame ∈ frames, Measured frame c) → ∃ frame ∈ frames, Reads frame c) ∧
      ∀ (c : Component) (later : List Frame), 0 < c.of (mergedUsage frames) →
        0 < c.of (mergedUsage (frames ++ later)) := by
  have hmerged : ∀ c, 0 < c.of (mergedUsage frames) ↔ ∃ frame ∈ frames, Reads frame c := by
    intro c
    rw [mergedUsage, foldl_mergeFrame_pos_iff]
    cases c <;> simp [Component.of]
  refine ⟨forall_congr' fun c => imp_congr_right fun _ => hmerged c, fun c later h => ?_⟩
  unfold mergedUsage at h ⊢
  rw [List.foldl_append, foldl_mergeFrame_pos_iff]
  exact .inl h

/-- 100 tokens in and 5 out at the end of a message. -/
def deltaFrame : Frame :=
  ([], (object [("type", .str (plain "message_delta")),
    ("usage", object [("input_tokens", .num (.ofDigits 1 [0, 0])),
      ("output_tokens", .num (.ofDigits 5 []))])]).data)

/-- The input that only the end of a message has is lost. -/
theorem mergedUsage_loses_input :
    Measured deltaFrame .input ∧ (mergedUsage [deltaFrame]).it = 0 ∧
      (mergedUsage [deltaFrame]).ot = 5 := by
  refine ⟨⟨_, _, ⟨rfl, .inl ⟨_, .tail _ (.head _), by decide +kernel, rfl⟩⟩,
    ⟨_, .head _, by decide +kernel, rfl⟩, by decide⟩, by decide +kernel, by decide +kernel⟩

end C4Gateway.Proxy
