import C4Gateway.Domain

/-! The usage log of a request.  `buildLog` counts the tokens of a usage tuple, and `logWithCtx`
fills in what the request's context knows, among it an estimate of tokens that the provider did not
report.  Both raise the total to the components; only the first goes by the markers that say
whether the provider's total has the cache reads in it. -/

namespace C4Gateway.Proxy

/-- The counters of a response, and how its total relates to cached tokens. -/
structure UsageTuple where
  it : Int := 0
  ot : Int := 0
  tt : Int := 0
  cr : Int := 0
  cc : Int := 0
  cacheReadExcludedFromTotal : Bool := false
  cacheReadIncludedInTotal : Bool := false
  calls : Int := 0
  ii : Int := 0
  io : Int := 0
  deriving DecidableEq, Repr

/-- The row that a request leaves. -/
structure UsageLog where
  requestID : String
  groupID : Int
  accountID : Int
  model : String
  mappedModel : String
  format : RequestFormat
  statusCode : Int
  errorType : ErrorType
  latencyMS : Int
  inputTokens : Int
  outputTokens : Int
  totalTokens : Int
  cacheReadTokens : Int
  cacheCreationTokens : Int
  callCount : Int
  createdAt : Int
  userID : Int := 0
  keyID : Int := 0
  clientIP : String := ""
  clientIPSource : String := ""
  clientIPTrusted : Option Bool := none
  billingTier : String := ""
  ttftMS : Option Int := none
  deriving DecidableEq, Repr

/-- What is known of a request before it is sent. -/
structure ReqMeta where
  keyMeta : KeyMeta
  tier : Option String := none -- present if `hasTier`
  clientIP : String := ""
  clientIPSource : String := ""
  clientIPTrusted : Bool := false
  estimatedInputTokens : Int := 0
  billingEnabled : Bool := false

/-- What the context of a request carries. -/
structure RequestContext where
  reqMeta : Option ReqMeta := none
  ttft : Option Int := none

/-- Adds components that are not negative, up to the largest counter. -/
def addUsageTokens (a b : Int) : Int :=
  let a := if a < 0 then 0 else a
  let b := if b < 0 then 0 else b
  if a > maxInt64 - b then maxInt64 else a + b

def mappedFor (req used : String) : String := if used ≠ "" ∧ used ≠ req then used else ""

/-- The formats whose provider totals include cached input. -/
def isOpenAIFamily (format : RequestFormat) : Bool :=
  format = .openaiChat || format = .openaiResponses || format = .openaiResponsesWS

def isTokenBillingFormat (format : RequestFormat) : Bool :=
  isOpenAIFamily format || format = .anthropic

/-- The request that a log is about, apart from its usage. -/
structure LogSubject where
  reqID : String
  groupID : Int
  accountID : Int
  reqModel : String
  usedModel : String
  format : RequestFormat
  status : Int
  errorType : ErrorType
  start : Int
  now : Int

namespace UsageTuple

def input (u : UsageTuple) : Int := addUsageTokens u.it u.ii

def output (u : UsageTuple) : Int := addUsageTokens u.ot u.io

def includeCache (u : UsageTuple) (format : RequestFormat) : Bool :=
  u.cacheReadIncludedInTotal || (!u.cacheReadExcludedFromTotal && isOpenAIFamily format)

def total (u : UsageTuple) (format : RequestFormat) : Int :=
  let total := u.tt
  let total :=
    if total ≤ 0 ∧ (u.input > 0 ∨ u.output > 0) then addUsageTokens u.input u.output else total
  let total := if total < 0 then 0 else total
  let accounted := addUsageTokens u.input u.output
  let accounted := if u.includeCache format then addUsageTokens accounted u.cr else accounted
  if total < accounted then accounted else total

end UsageTuple

/-- The row as the outcome gives it. -/
def buildLog (s : LogSubject) (u : UsageTuple) : UsageLog where
  requestID := s.reqID
  groupID := s.groupID
  accountID := s.accountID
  model := s.reqModel
  mappedModel := mappedFor s.reqModel s.usedModel
  format := s.format
  statusCode := s.status
  errorType := s.errorType
  latencyMS := s.now - s.start
  inputTokens := u.input
  outputTokens := u.output
  totalTokens := u.total s.format
  cacheReadTokens := u.cr
  cacheCreationTokens := u.cc
  callCount := if u.calls < 0 then 0 else u.calls
  createdAt := s.now

namespace UsageLog

def upstreamStarted (l : UsageLog) : Bool :=
  l.errorType = .none || (l.errorType = .abort && l.statusCode = 200)

/-- Fills in components that are missing, and raises the total to what they add up to. -/
def estimate (l : UsageLog) (estimatedInputTokens : Int) : UsageLog :=
  let estimatedInput :=
    if l.cacheReadTokens > 0 ∧ isOpenAIFamily l.format then
      max (estimatedInputTokens - l.cacheReadTokens) 1
    else estimatedInputTokens
  let input := if l.inputTokens ≤ 0 then estimatedInput else l.inputTokens
  let output :=
    if l.outputTokens ≤ 0 then
      let derived := Int.bmod (l.totalTokens - input) (2 ^ 64)
      let derived :=
        if isOpenAIFamily l.format then Int.bmod (derived - l.cacheReadTokens) (2 ^ 64)
        else derived
      if derived > 0 then derived else 1
    else l.outputTokens
  let accounted := addUsageTokens input output
  let accounted :=
    if isOpenAIFamily l.format then addUsageTokens accounted l.cacheReadTokens else accounted
  { l with
    inputTokens := input
    outputTokens := output
    totalTokens := if l.totalTokens < accounted then accounted else l.totalTokens }

/-- Whether `logWithCtx` looks at the estimate. -/
def estimates (l : UsageLog) (rm : ReqMeta) : Bool :=
  rm.billingEnabled && l.upstreamStarted && rm.estimatedInputTokens > 0 &&
    isTokenBillingFormat l.format

end UsageLog

/-- The row with what is known of the request, and an estimate where a count is missing. -/
def logWithCtx (ctx : RequestContext) (l : UsageLog) : UsageLog :=
  let l :=
    match ctx.reqMeta with
    | none => l
    | some rm =>
      let l := { l with
        userID := rm.keyMeta.userID
        keyID := rm.keyMeta.keyID
        clientIP := rm.clientIP
        clientIPSource := rm.clientIPSource
        clientIPTrusted := some rm.clientIPTrusted
        billingTier := rm.tier.getD l.billingTier }
      if l.estimates rm then l.estimate rm.estimatedInputTokens else l
  match ctx.ttft with
  | some ttft => { l with ttftMS := some ttft }
  | none => l

theorem addUsageTokens_le (a b : Int) : addUsageTokens a b ≤ maxInt64 := by
  simp only [addUsageTokens]
  omega

theorem le_addUsageTokens {a : Int} (b : Int) (ha : a ≤ maxInt64) : a ≤ addUsageTokens a b := by
  simp only [addUsageTokens] at *
  omega

theorem addUsageTokens_eq {a b : Int} (ha : 0 ≤ a) (hb : 0 ≤ b) :
    addUsageTokens a b = min (a + b) maxInt64 := by
  simp only [addUsageTokens, Int.not_lt.mpr ha, Int.not_lt.mpr hb, if_false]
  omega

namespace UsageTuple

/-- The tokens of both sides, and the same with the cache reads. -/
def sum (u : UsageTuple) : Int := addUsageTokens u.input u.output

def sumWithCache (u : UsageTuple) : Int := addUsageTokens (addUsageTokens u.input u.output) u.cr

variable (u : UsageTuple) (format : RequestFormat)

theorem sum_le_sumWithCache : u.sum ≤ u.sumWithCache :=
  le_addUsageTokens _ (addUsageTokens_le _ _)

theorem sum_pos (hin : 0 < u.input) : 0 < u.sum :=
  Int.lt_of_lt_of_le hin (le_addUsageTokens _ (addUsageTokens_le _ _))

theorem total_eq (hin : 0 < u.input) :
    u.total format = max u.tt (if u.includeCache format then u.sumWithCache else u.sum) := by
  have hpos := u.sum_pos hin
  have hle := u.sum_le_sumWithCache
  simp only [total, hin, true_or, and_true]
  rw [← sumWithCache, ← sum]
  split <;> split <;> omega

theorem includeCache_iff (hfamily : isOpenAIFamily format) : u.includeCache format ↔
    ¬(u.cacheReadExcludedFromTotal ∧ ¬u.cacheReadIncludedInTotal) := by
  simp only [includeCache, hfamily]
  cases u.cacheReadIncludedInTotal <;> cases u.cacheReadExcludedFromTotal <;> decide

/-- When the cache reads raise the total. -/
theorem lt_sumWithCache_iff (hin : 0 < u.input) (hout : 0 < u.output) :
    u.sum < u.sumWithCache ∧ u.tt < u.sumWithCache ↔ 0 < u.cr ∧
      u.input + u.output < maxInt64 ∧ u.tt < min (u.input + u.output + u.cr) maxInt64 := by
  have hsum : u.sum = min (u.input + u.output) maxInt64 :=
    addUsageTokens_eq (Int.le_of_lt hin) (Int.le_of_lt hout)
  by_cases hcr : 0 < u.cr
  · have hcache : u.sumWithCache = min (u.sum + u.cr) maxInt64 :=
      addUsageTokens_eq (Int.le_of_lt (u.sum_pos hin)) (Int.le_of_lt hcr)
    simp only [hcache, hsum, maxInt64]
    omega
  · have hcache : u.sumWithCache = u.sum := by
      simp only [sumWithCache, addUsageTokens, maxInt64] at *
      omega
    omega

end UsageTuple

/-- The case in which the context adds cache reads that the provider's total does not have in it. -/
def LogSubject.addsCacheReads (s : LogSubject) (ctx : RequestContext) (u : UsageTuple) : Prop :=
  (∃ rm, ctx.reqMeta = some rm ∧ rm.billingEnabled ∧ 0 < rm.estimatedInputTokens) ∧
    (s.errorType = .none ∨ s.errorType = .abort ∧ s.status = 200) ∧ isOpenAIFamily s.format ∧
    u.cacheReadExcludedFromTotal ∧ ¬u.cacheReadIncludedInTotal ∧ 0 < u.cr ∧
    u.input + u.output < maxInt64 ∧ u.tt < min (u.input + u.output + u.cr) maxInt64

/-- What `estimate` does to a log with tokens on both sides. -/
theorem UsageLog.estimate_tokens (l : UsageLog) (estimated : Int) (hin : 0 < l.inputTokens)
    (hout : 0 < l.outputTokens) :
    (l.estimate estimated).inputTokens = l.inputTokens ∧
    (l.estimate estimated).outputTokens = l.outputTokens ∧
    (l.estimate estimated).totalTokens = max l.totalTokens
      (if isOpenAIFamily l.format then
        addUsageTokens (addUsageTokens l.inputTokens l.outputTokens) l.cacheReadTokens
      else addUsageTokens l.inputTokens l.outputTokens) := by
  simp only [estimate, Int.not_le.mpr hin, Int.not_le.mpr hout, if_false, true_and]
  omega

def UsageLog.tokens (l : UsageLog) : Int × Int × Int :=
  (l.inputTokens, l.outputTokens, l.totalTokens)

theorem tokens_logWithCtx (ctx : RequestContext) (l : UsageLog) :
    (logWithCtx ctx l).tokens = match ctx.reqMeta with
      | none => l.tokens
      | some rm =>
        if l.estimates rm then (l.estimate rm.estimatedInputTokens).tokens else l.tokens := by
  obtain ⟨reqMeta, ttft⟩ := ctx
  cases reqMeta with
  | none => cases ttft <;> rfl
  | some rm =>
    have hestimates : ∀ userID keyID clientIP clientIPSource clientIPTrusted billingTier,
        ({ l with userID, keyID, clientIP, clientIPSource, clientIPTrusted, billingTier } :
          UsageLog).estimates rm = l.estimates rm := fun _ _ _ _ _ _ => rfl
    simp only [logWithCtx, hestimates]
    cases l.estimates rm <;> cases ttft <;> rfl

theorem UsageLog.estimates_iff (l : UsageLog) (rm : ReqMeta) :
    l.estimates rm ↔ rm.billingEnabled ∧
      (l.errorType = .none ∨ l.errorType = .abort ∧ l.statusCode = 200) ∧
      0 < rm.estimatedInputTokens ∧ isTokenBillingFormat l.format := by
  simp [estimates, upstreamStarted, and_assoc]

/-- The estimate leaves the counters alone unless it takes cache reads into a total that `buildLog`
has kept them out of. -/
theorem tokens_estimate_iff (s : LogSubject) (u : UsageTuple) (estimated : Int)
    (hin : 0 < u.input) (hout : 0 < u.output) :
    ((buildLog s u).estimate estimated).tokens = (buildLog s u).tokens ↔
      ¬(isOpenAIFamily s.format ∧ u.cacheReadExcludedFromTotal ∧ ¬u.cacheReadIncludedInTotal ∧
        0 < u.cr ∧ u.input + u.output < maxInt64 ∧
        u.tt < min (u.input + u.output + u.cr) maxInt64) := by
  obtain ⟨hinput, houtput, htotal⟩ := (buildLog s u).estimate_tokens estimated hin hout
  have hle := u.sum_le_sumWithCache
  have htuple := u.total_eq s.format hin
  rw [← u.lt_sumWithCache_iff hin hout]
  simp only [UsageLog.tokens, hinput, houtput, Prod.mk.injEq, true_and]
  rw [htotal]
  simp only [buildLog, htuple]
  rw [← UsageTuple.sumWithCache, ← UsageTuple.sum]
  by_cases hfamily : isOpenAIFamily s.format
  · -- The two totals agree on the cache reads unless a marker keeps them out of the first.
    have hmarkers := u.includeCache_iff s.format hfamily
    simp only [hfamily, if_true, true_and]
    rw [← and_assoc]
    by_cases hincluded : u.includeCache s.format
    · simp only [hmarkers.mp hincluded, hincluded, if_true, false_and, not_false_eq_true, iff_true]
      omega
    · simp only [not_not.mp (mt hmarkers.mpr hincluded), hincluded, Bool.false_eq_true, if_false,
        not_false_eq_true, true_and]
      omega
  · simp only [hfamily, Bool.false_eq_true, if_false, false_and, not_false_eq_true, iff_true]
    split <;> omega

/-- With tokens on both sides, the context leaves the counters of a log as `buildLog` has them,
except where it adds cache reads that the provider's total does not have in it. -/
theorem tokens_logWithCtx_iff (ctx : RequestContext) (s : LogSubject) (u : UsageTuple)
    (hin : 0 < u.input) (hout : 0 < u.output) :
    (logWithCtx ctx (buildLog s u)).tokens = (buildLog s u).tokens ↔
      ¬s.addsCacheReads ctx u := by
  rw [tokens_logWithCtx]
  cases hmeta : ctx.reqMeta with
  | none => simp [LogSubject.addsCacheReads, hmeta]
  | some rm =>
    simp only [LogSubject.addsCacheReads, hmeta, Option.some.injEq, exists_eq_left']
    by_cases hest : (buildLog s u).estimates rm
    · obtain ⟨hbilling, hstarted, hpos, -⟩ := ((buildLog s u).estimates_iff rm).mp hest
      rw [if_pos hest, tokens_estimate_iff s u _ hin hout]
      exact ⟨fun h hadds => h hadds.2.2, fun h hcache => h ⟨⟨hbilling, hpos⟩, hstarted, hcache⟩⟩
    · rw [if_neg hest]
      refine ⟨fun _ h => hest ?_, fun _ => rfl⟩
      obtain ⟨⟨hbilling, hpos⟩, hstarted, hfamily, -⟩ := h
      exact ((buildLog s u).estimates_iff rm).mpr
        ⟨hbilling, hstarted, hpos, Bool.or_eq_true_iff.mpr (.inl hfamily)⟩

section

/-- A Chat request served by an Anthropic upstream, whose total leaves 1000 cache reads out. -/
def convertedUsage : UsageTuple :=
  { it := 100, ot := 50, tt := 150, cr := 1000, cacheReadExcludedFromTotal := true }

def convertedRequest : LogSubject where
  reqID := "r"
  groupID := 1
  accountID := 1
  reqModel := "m"
  usedModel := "m"
  format := .openaiChat
  status := 200
  errorType := .none
  start := 0
  now := 0

def billedContext : RequestContext :=
  { reqMeta := some
      { keyMeta := { keyID := 1 }, estimatedInputTokens := 10, billingEnabled := true } }

theorem convertedUsage_raised :
    (buildLog convertedRequest convertedUsage).tokens = (100, 50, 150) ∧
    (logWithCtx billedContext (buildLog convertedRequest convertedUsage)).tokens =
      (100, 50, 1150) := by
  decide

/-- Without the marker the total has the cache reads in it from the start. -/
theorem tokens_logWithCtx_iff_native :
    (logWithCtx billedContext (buildLog convertedRequest
        { convertedUsage with cacheReadExcludedFromTotal := false })).tokens =
      (buildLog convertedRequest
        { convertedUsage with cacheReadExcludedFromTotal := false }).tokens :=
  (tokens_logWithCtx_iff billedContext convertedRequest
    { convertedUsage with cacheReadExcludedFromTotal := false } (by decide) (by decide)).mpr
    (fun h => absurd h.2.2.2.1 (by decide))

end
end C4Gateway.Proxy
